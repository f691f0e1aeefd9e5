import AuthCore.Proofs.Token.Separation

/-!
# The texts that are refresh tokens

A refresh token is accepted exactly if it is a message in base 64, a point, and the signature of
this message in base 64; the message is a text that begins with the number of an account and a star,
and something has to follow (`RefreshToken.Names`). Base 64 has one text for each list of bytes, so
there is one token for each message: no other spelling of a token is accepted.
-/

namespace AuthCore.RefreshToken

variable {s : Signer} {token : String} {raw : List UInt8} {id : Int}

/-- A message is the UTF-8 form of a number, a star and something behind it. The number ends at the
first star and has 32 bits. -/
def Names (raw : List UInt8) (id : Int) : Prop :=
  ∃ number rest : List Char, raw = Text.utf8 (String.ofList (number ++ '*' :: rest)) ∧
    '*' ∉ number ∧ rest ≠ [] ∧ Text.Spells number id ∧ Fits id

/-- What a text is split into are the parts around the first occurrence. -/
theorem splitOnce?_eq_some_iff {c : Char} {cs before after : List Char} :
    splitOnce? c cs = some (before, after) ↔ cs = before ++ c :: after ∧ c ∉ before := by
  constructor
  · intro h
    unfold splitOnce? at h
    split at h
    next => cases h
    next d rest hrest =>
      obtain ⟨rfl, rfl⟩ := Prod.mk.inj (Option.some.inj h)
      have hd : d = c := by
        have hhead := List.head?_dropWhile_not (· != c) cs
        rw [hrest] at hhead
        simpa using hhead
      refine ⟨?_, fun hm => ?_⟩
      · rw [← hd, ← hrest, hd, List.takeWhile_append_dropWhile]
      · simpa using List.mem_takeWhile_imp hm
  · rintro ⟨rfl, hc⟩
    exact splitOnce?_append hc after

theorem userId?_eq_some_iff : userId? raw = some id ↔ Names raw id := by
  constructor
  · intro h
    simp only [userId?, Option.bind_eq_bind, Option.bind_eq_some_iff,
      Option.ite_none_left_eq_some] at h
    obtain ⟨text, htext, ⟨number, rest⟩, hsplit, hrest, hid⟩ := h
    obtain ⟨hlist, hstar⟩ := splitOnce?_eq_some_iff.1 hsplit
    obtain ⟨hspells, hlow, hhigh⟩ := Text.signed?_eq_some_iff.1 hid
    rw [String.toList_ofList] at hspells
    refine ⟨number, rest, ?_, hstar, by simpa using hrest, hspells, hlow, hhigh⟩
    rw [Text.eq_utf8_of_ofUtf8? htext, ← hlist, String.ofList_toList]
  · rintro ⟨number, rest, rfl, hstar, hrest, hspells, hfits⟩
    have hsplit := splitOnce?_append hstar rest
    have hid : Text.signed? 32 (String.ofList number) = some id := by
      rw [Text.signed?_eq_some_iff, String.toList_ofList]
      exact ⟨hspells, hfits⟩
    simp only [userId?, Text.ofUtf8?_utf8, String.toList_ofList, hsplit, Option.bind_eq_bind,
      Option.bind_some, hid]
    simp [hrest]

/-- A token is accepted exactly if it is the token of a message that names an account. -/
theorem verify_eq_ok_iff :
    verify s token = .ok id ↔ ∃ raw, token = ofMessage s raw ∧ Names raw id := by
  constructor
  · intro h
    unfold verify at h
    split at h
    next i hi =>
      obtain rfl := Except.ok.inj h
      simp only [accountOf?, Option.bind_eq_bind, Option.bind_eq_some_iff,
        Option.ite_none_right_eq_some] at hi
      obtain ⟨⟨first, signature⟩, hsplit, raw, hraw, mac, hmac, rfl, huser⟩ := hi
      obtain ⟨hlist, -⟩ := splitOnce?_eq_some_iff.1 hsplit
      -- both parts are written as their bytes would be, so nothing else is left of the token
      obtain rfl : first = _ := Text.Alphabet.eq_encode_of_decode? hraw
      obtain rfl : signature = _ := Text.Alphabet.eq_encode_of_decode? hmac
      refine ⟨raw, ?_, userId?_eq_some_iff.1 huser⟩
      rw [← String.toList_inj, hlist]
      simp [ofMessage, Text.base64]
    next => cases h
  · rintro ⟨raw, rfl, hnames⟩
    rw [verify, accountOf?_ofMessage, userId?_eq_some_iff.2 hnames]

/-- There is no other error. -/
theorem verify_eq_error (h : ∀ id, verify s token ≠ .ok id) :
    verify s token = .error .invalidTokenProvided := by
  unfold verify at *
  split
  next i hi => exact absurd (by rw [hi]) (h i)
  next => rfl

/-- Different tokens that are accepted have different messages. -/
theorem message?_ne {token' : String} {id' : Int} (h : verify s token = .ok id)
    (h' : verify s token' = .ok id') (hne : token ≠ token') :
    ∃ raw raw', message? token = some raw ∧ message? token' = some raw' ∧ raw ≠ raw' := by
  obtain ⟨raw, rfl, -⟩ := verify_eq_ok_iff.1 h
  obtain ⟨raw', rfl, -⟩ := verify_eq_ok_iff.1 h'
  refine ⟨raw, raw', message?_ofMessage s raw, message?_ofMessage s raw', fun he => hne ?_⟩
  rw [he]

/-- Under every secret the accepted tokens are the signed messages. A token is accepted for an
account exactly if it is a message in base 64, a point, and in base 64 the HMAC of the message over
SHA-256 under the secret, where the message is a text that names the account; every other text is
refused as an invalid token. So the token made for an account with any nonce is accepted for it,
whatever number of 32 bits the account has, also with every nonce that is drawn; and different
tokens that are accepted have different messages. -/
theorem accepted_iff_signed (s : Signer) :
    (∀ token id, verify s token = .ok id ↔
      ∃ raw, token = Text.base64 raw ++ "." ++
          Text.base64 (Digest.Hash.sha256.hmac (Text.utf8 s.secret) raw) ∧ Names raw id) ∧
    (∀ token, (∀ id, verify s token ≠ .ok id) →
      verify s token = .error .invalidTokenProvided) ∧
    (∀ id, Fits id → (∀ nonce, nonce ≠ "" → verify s (sign s id nonce) = .ok id) ∧
      ∀ (d : Draws) now, verify s (sign s id (d.moment now).nonce) = .ok id) ∧
    ∀ token token' id id', verify s token = .ok id → verify s token' = .ok id' → token ≠ token' →
      ∃ raw raw', message? token = some raw ∧ message? token' = some raw' ∧ raw ≠ raw' := by
  refine ⟨fun token id => verify_eq_ok_iff, fun token => verify_eq_error, fun id hid => ?_,
    fun token token' id id' => message?_ne⟩
  exact ⟨fun nonce hn => verify_sign hid hn, fun d now => verify_sign hid (nonce_ne_empty d now)⟩

/-- The account with the lowest number, an account whose number is written with a sign and zeros,
the messages of the two, and a text that is no token. -/
theorem accepted_iff_signed_lowest :
    let s : Signer := ⟨"secret", .hs256⟩
    let padded := ofMessage s (Text.utf8 "+07*n")
    verify s (sign s (-2 ^ 31) "n") = .ok (-2 ^ 31) ∧ verify s padded = .ok 7 ∧
      (∃ raw raw', message? (sign s (-2 ^ 31) "n") = some raw ∧ message? padded = some raw' ∧
        raw ≠ raw') ∧
      verify s "" = .error .invalidTokenProvided := by
  intro s padded
  obtain ⟨hiff, herror, hsign, hne⟩ := accepted_iff_signed s
  have hlowest : verify s (sign s (-2 ^ 31) "n") = .ok (-2 ^ 31) :=
    (hsign _ (by decide)).1 "n" (by decide)
  have hdigits : ∀ c ∈ ['0', '7'], '0' ≤ c ∧ c ≤ '9' := by
    rw [List.forall_mem_cons, List.forall_mem_singleton]
    decide
  have hnames : Names (Text.utf8 "+07*n") 7 :=
    ⟨['+', '0', '7'], ['n'], rfl, by decide, by decide, .plus hdigits (by decide), by decide⟩
  have hpadded : verify s padded = .ok 7 := (hiff _ _).2 ⟨_, rfl, hnames⟩
  refine ⟨hlowest, hpadded, hne _ _ _ _ hlowest hpadded fun he => ?_, herror "" nofun⟩
  rw [he, hpadded] at hlowest
  exact absurd (Except.ok.inj hlowest) (by decide)

end AuthCore.RefreshToken
