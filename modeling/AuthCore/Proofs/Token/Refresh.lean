import AuthCore.Proofs.Json.Document
import AuthCore.Proofs.Text.Base64
import AuthCore.Proofs.Text.Integer
import AuthCore.Draws
import AuthCore.Token.Issue

/-!
# Refresh tokens and their entries

A token made for an account verifies as a token of that account, and the entry that the cache keeps
for it reads back as the same account. The account has to have a number of 32 bits: no other one can
be read.
-/

namespace AuthCore

namespace RefreshToken

/-- A text without a character, the character and more are split there. -/
theorem splitOnce?_append {c : Char} {cs : List Char} (h : c ∉ cs) (rest : List Char) :
    splitOnce? c (cs ++ c :: rest) = some (cs, rest) := by
  have hp : ∀ d ∈ cs, (d != c) = true := fun d hd => bne_iff_ne.2 fun he => h (he ▸ hd)
  simp [splitOnce?, List.dropWhile_append_of_pos hp, List.takeWhile_append_of_pos hp]

/-- Whether a number has 32 bits, sign included. -/
def Fits (i : Int) : Prop := -(2 ^ 31 : Int) ≤ i ∧ i < (2 ^ 31 : Int)

instance (i : Int) : Decidable (Fits i) := inferInstanceAs (Decidable (_ ∧ _))

theorem signed?_showInt_of_fits {i : Int} (h : Fits i) :
    Text.signed? 32 (Text.showInt i) = some i := by
  rw [Text.signed?_showInt]
  simpa [Fits] using h

theorem eq_of_signed?_showInt {i j : Int} (h : Text.signed? 32 (Text.showInt i) = some j) :
    j = i := by
  rw [Text.signed?_showInt, Option.filter_eq_some_iff] at h
  exact (Option.some.inj h.1).symm

theorem notMem_showInt {c : Char} (hm : c ≠ '-') (hd : ¬ Text.IsDigit c) (i : Int) :
    c ∉ Text.integerDigits i := fun h =>
  (Text.mem_integerDigits h).elim hm hd

theorem splitOnce?_message (user : Int) (nonce : String) :
    splitOnce? '*' (Text.showInt user ++ "*" ++ nonce).toList =
      some (Text.integerDigits user, nonce.toList) := by
  have := splitOnce?_append (notMem_showInt (c := '*') (by decide) (by decide) user) nonce.toList
  simpa [Text.showInt] using this

theorem splitOnce?_ofMessage (s : Signer) (raw : List UInt8) :
    splitOnce? '.' (ofMessage s raw).toList =
      some (Text.Alphabet.url.encode raw, Text.Alphabet.url.encode (s.signRefresh raw)) := by
  have := splitOnce?_append (Text.point_notMem_encode raw)
    (Text.Alphabet.url.encode (s.signRefresh raw))
  simpa [ofMessage, Text.base64] using this

theorem userId?_message {nonce : String} (h : nonce ≠ "") (user : Int) :
    userId? (message user nonce) = Text.signed? 32 (Text.showInt user) := by
  have hn : nonce.toList.isEmpty = false := by simpa using h
  simp only [userId?, message, Text.ofUtf8?_utf8, Option.bind_eq_bind, Option.bind_some,
    splitOnce?_message, hn]
  rfl

theorem accountOf?_ofMessage (s : Signer) (raw : List UInt8) :
    accountOf? s (ofMessage s raw) = userId? raw := by
  simp only [accountOf?, splitOnce?_ofMessage, Option.bind_eq_bind, Option.bind_some,
    Text.Alphabet.decode?_encode, if_true]

/-- A token verifies as a token of the account it was made for. -/
theorem verify_sign {s : Signer} {user : Int} {nonce : String} (hu : Fits user)
    (hn : nonce ≠ "") : verify s (sign s user nonce) = .ok user := by
  rw [verify, sign, accountOf?_ofMessage, userId?_message hn, signed?_showInt_of_fits hu]

/-- A token verifies as a token of no other account. -/
theorem eq_of_verify_sign {s : Signer} {user id : Int} {nonce : String} (hn : nonce ≠ "")
    (h : verify s (sign s user nonce) = .ok id) : id = user := by
  rw [verify, sign, accountOf?_ofMessage, userId?_message hn] at h
  split at h
  next i hi => exact (Except.ok.inj h) ▸ eq_of_signed?_showInt hi
  next => cases h

theorem ofMessage_injective {s : Signer} {raw raw' : List UInt8}
    (h : ofMessage s raw = ofMessage s raw') : raw = raw' := by
  have hs := splitOnce?_ofMessage s raw
  rw [h, splitOnce?_ofMessage] at hs
  have he : Text.Alphabet.url.encode raw' = Text.Alphabet.url.encode raw :=
    (Prod.mk.inj (Option.some.inj hs)).1
  have hd := congrArg Text.Alphabet.url.decode? he
  rw [Text.Alphabet.decode?_encode, Text.Alphabet.decode?_encode] at hd
  exact (Option.some.inj hd).symm

/-- A message says for which account it is, and which nonce it has. -/
theorem message_injective {user user' : Int} {nonce nonce' : String}
    (h : message user nonce = message user' nonce') : user = user' ∧ nonce = nonce' := by
  have ht := congrArg Text.ofUtf8? h
  rw [message, message, Text.ofUtf8?_utf8, Text.ofUtf8?_utf8, Option.some.injEq] at ht
  have hs := splitOnce?_message user nonce
  rw [ht, splitOnce?_message] at hs
  obtain ⟨hd, hn⟩ := Prod.mk.inj (Option.some.inj hs)
  have hi := congrArg Text.integer? hd
  rw [Text.integer?_integerDigits, Text.integer?_integerDigits] at hi
  exact ⟨(Option.some.inj hi).symm, (String.toList_inj.1 hn).symm⟩

/-- A token was made for one account only. -/
theorem sign_injective {s : Signer} {user user' : Int} {nonce nonce' : String}
    (h : sign s user nonce = sign s user' nonce') : user = user' :=
  (message_injective (ofMessage_injective h)).1

/-- Only accounts with numbers of 32 bits have tokens that verify. -/
theorem fits_of_verify {s : Signer} {token : String} {user : Int}
    (h : verify s token = .ok user) : Fits user := by
  have hfits (text : String) (i : Int) (ht : Text.signed? 32 text = some i) : Fits i := by
    have hb := (Option.filter_eq_some_iff.1 ht).2
    rw [Bool.and_eq_true, decide_eq_true_eq, decide_eq_true_eq] at hb
    exact hb
  unfold verify at h
  split at h
  next i hi =>
    obtain rfl := Except.ok.inj h
    simp only [accountOf?, userId?, Option.bind_eq_bind, Option.bind_eq_some_iff,
      Option.ite_none_right_eq_some, Option.ite_none_left_eq_some] at hi
    obtain ⟨_, _, _, _, _, _, -, _, _, _, _, -, hi⟩ := hi
    exact hfits _ _ hi
  next => cases h

/-- The nonces that are drawn are not empty. -/
theorem nonce_ne_empty (d : Draws) (now : Nat) : (d.moment now).nonce ≠ "" := by
  intro h
  have hl := congrArg (fun s : String => s.toList.length) h
  simp [Draws.moment, Draws.text, nonceLength] at hl

end RefreshToken

namespace Tokens

/-- The entry of a token reads back as the number of its account. -/
theorem entryUser?_entry {user : Int} (hu : RefreshToken.Fits user) (role : Role) :
    entryUser? (entry user role) = some user := by
  have hs : RefreshToken.splitOnce? '+' (entry user role).toList =
      some (Text.integerDigits user, role.name.toList) := by
    have := RefreshToken.splitOnce?_append
      (RefreshToken.notMem_showInt (c := '+') (by decide) (by decide) user) role.name.toList
    simpa [entry, Text.showInt] using this
  simp only [entryUser?, hs, Option.bind_eq_bind, Option.bind_some]
  exact RefreshToken.signed?_showInt_of_fits hu

/-- What the cache keeps for an entry reads back as the entry. -/
theorem parse_entryText (e : String) :
    Cache.parse Json.string? (some (entryText e)) = .ok (some e) := by
  simp only [Cache.parse, entryText, Json.ofText?_string, Option.bind_some, Json.string?]

end Tokens

end AuthCore
