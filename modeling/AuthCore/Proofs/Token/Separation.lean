import AuthCore.Proofs.Token.Access

/-!
# One secret, two kinds of messages

Access and refresh tokens are signed with one secret, under HMAC over SHA-256 by the same function,
so a signature says nothing about the kind of the token. The messages do: the number in the message
of a refresh token ends at a star, and what an access token signs is two texts in base 64 with a
point between them. No bytes are the message of an accepted token of both kinds, so no signature can
be carried over from one kind to the other.
-/

namespace AuthCore

namespace RefreshToken

/-- The bytes that the part of a token before its first point stands for. -/
def message? (token : String) : Option (List UInt8) := do
  Text.Alphabet.url.decode? (← splitOnce? '.' token.toList).1

/-- The text of a token after its first point. -/
def signature? (token : String) : Option (List Char) :=
  (splitOnce? '.' token.toList).map (·.2)

theorem message?_ofMessage (s : Signer) (raw : List UInt8) :
    message? (ofMessage s raw) = some raw := by
  simp only [message?, splitOnce?_ofMessage, Option.bind_eq_bind, Option.bind_some,
    Text.Alphabet.decode?_encode]

/-- A text that is split has the character. -/
theorem mem_of_splitOnce? {c : Char} {cs : List Char} {parts : List Char × List Char}
    (h : splitOnce? c cs = some parts) : c ∈ cs := by
  by_contra hc
  have hall : ∀ d ∈ cs, (d != c) = true := fun d hd => bne_iff_ne.2 fun he => hc (he ▸ hd)
  rw [splitOnce?, List.dropWhile_eq_nil_iff.2 hall] at h
  cases h

/-- A message that names an account is a text with a star. -/
theorem star_mem_of_userId? {raw : List UInt8} {user : Int} (h : userId? raw = some user) :
    ∃ text, raw = Text.utf8 text ∧ '*' ∈ text.toList := by
  simp only [userId?, Option.bind_eq_bind, Option.bind_eq_some_iff] at h
  obtain ⟨text, htext, _, hsplit, -⟩ := h
  exact ⟨text, Text.eq_utf8_of_ofUtf8? htext, mem_of_splitOnce? hsplit⟩

/-- A token is accepted for its message, which is a text with a star, and for its signature. -/
theorem parts_of_verify {s : Signer} {token : String} {user : Int}
    (h : verify s token = .ok user) :
    ∃ text signature, message? token = some (Text.utf8 text) ∧ '*' ∈ text.toList ∧
      signature? token = some signature ∧
      Text.Alphabet.url.decode? signature = some (s.signRefresh (Text.utf8 text)) := by
  unfold verify at h
  split at h
  next id hid =>
    simp only [accountOf?, Option.bind_eq_bind, Option.bind_eq_some_iff,
      Option.ite_none_right_eq_some] at hid
    obtain ⟨⟨first, signature⟩, hsplit, raw, hraw, mac, hmac, rfl, huser⟩ := hid
    obtain ⟨text, rfl, hstar⟩ := star_mem_of_userId? huser
    refine ⟨text, signature, ?_, hstar, ?_, hmac⟩
    · simp only [message?, hsplit, Option.bind_eq_bind, Option.bind_some, hraw]
    · simp only [signature?, hsplit, Option.map_some]
  next => cases h

/-- A text without a star signs for no account, whatever signature is put after it. -/
theorem verify_of_star_notMem {text : String} (h : '*' ∉ text.toList) (s : Signer)
    (signature : List Char) :
    verify s (Text.base64 (Text.utf8 text) ++ "." ++ String.ofList signature) =
      .error .invalidTokenProvided := by
  have hsplit : splitOnce? '.'
      (Text.base64 (Text.utf8 text) ++ "." ++ String.ofList signature).toList =
      some (Text.Alphabet.url.encode (Text.utf8 text), signature) := by
    simpa [Text.base64] using
      splitOnce?_append (Text.point_notMem_encode (Text.utf8 text)) signature
  have hnone : userId? (Text.utf8 text) = none := by
    refine Option.eq_none_iff_forall_ne_some.2 fun _ huser => h ?_
    obtain ⟨_, htext, hstar⟩ := star_mem_of_userId? huser
    rwa [Text.utf8_injective htext]
  rw [verify, accountOf?, hsplit]
  simp only [Option.bind_eq_bind, Option.bind_some, Text.Alphabet.decode?_encode, hnone, ite_self,
    Option.bind_fun_none]

end RefreshToken

namespace AccessToken

/-- The texts of a token before and after its last point: what is signed, and the signature. -/
def halves? (token : String) : Option (List Char × List Char) :=
  (RefreshToken.splitOnce? '.' token.toList.reverse).map fun parts =>
    (parts.2.reverse, parts.1.reverse)

theorem halves?_append {signature : List Char} (h : '.' ∉ signature) (input : List Char) :
    halves? (String.ofList (input ++ '.' :: signature)) = some (input, signature) := by
  have hsplit := RefreshToken.splitOnce?_append (fun hm => h (List.mem_reverse.1 hm)) input.reverse
  rw [halves?, String.toList_ofList, List.reverse_append, List.reverse_cons, List.append_assoc,
    List.singleton_append, hsplit, Option.map_some, List.reverse_reverse, List.reverse_reverse]

theorem intercalate_concat {parts : List (List Char)} (h : parts ≠ []) (sep last : List Char) :
    sep.intercalate (parts ++ [last]) = sep.intercalate parts ++ sep ++ last := by
  induction parts with
  | nil => exact absurd rfl h
  | cons part parts ih =>
    rcases eq_or_ne parts [] with rfl | hne
    · simp [List.intercalate]
    · rw [List.cons_append, List.intercalate_cons_of_ne_nil (by simp),
        List.intercalate_cons_of_ne_nil hne, ih hne]
      simp only [List.append_assoc]

/-- The parts of a token make up the token. -/
theorem eq_of_split? {token : String} {first claims signature : List Char}
    (h : split? token = some (first, claims, signature)) :
    token = String.ofList ((first ++ '.' :: claims) ++ '.' :: signature) := by
  unfold split? at h
  split at h
  next signature' claims' part more hparts =>
    obtain ⟨rfl, rfl, rfl⟩ := Prod.mk.injEq .. ▸ Prod.mk.injEq .. ▸ Option.some.inj h
    have hlist : token.toList.splitOn '.' =
        ((part :: more).reverse ++ [claims']) ++ [signature'] := by
      simpa using congrArg List.reverse hparts
    have htext : ['.'].intercalate (token.toList.splitOn '.') = token.toList :=
      List.intercalate_splitOn '.'
    rw [hlist, intercalate_concat (by simp), intercalate_concat (by simp)] at htext
    rw [← String.toList_inj, String.toList_ofList, ← htext]
    simp only [List.append_assoc, List.cons_append, List.nil_append]
  next => cases h

/-- What reads as a document is text in base 64. -/
theorem mem_of_document? {part : List Char} {j : Json} (h : document? part = some j) :
    ∀ c ∈ part, c ∈ Text.Alphabet.url.chars := by
  rw [document?, Option.bind_eq_bind, Option.bind_eq_some_iff] at h
  obtain ⟨_, hbytes, -⟩ := h
  exact Text.Alphabet.mem_of_decode? hbytes

/-- A token that is signed is three texts in base 64 with points between them. -/
theorem parts_of_signedClaims? {s : Signer} {token : String} {j : Json}
    (h : signedClaims? s token = some j) :
    ∃ first claims signature,
      token = String.ofList ((first ++ '.' :: claims) ++ '.' :: signature) ∧
      (∀ c ∈ first, c ∈ Text.Alphabet.url.chars) ∧ (∀ c ∈ claims, c ∈ Text.Alphabet.url.chars) ∧
      Text.Alphabet.url.decode? signature =
        some (s.signAccess (Text.utf8 (String.ofList (first ++ '.' :: claims)))) := by
  simp only [signedClaims?, Option.bind_eq_bind, Option.bind_eq_some_iff] at h
  obtain ⟨⟨first, claims, signature⟩, hsplit, header, hheader, a, -, h⟩ := h
  split at h
  next => cases h
  next =>
  simp only [Option.bind_eq_some_iff, Option.ite_none_right_eq_some] at h
  obtain ⟨_, hmac, rfl, hclaims⟩ := h
  exact ⟨first, claims, signature, eq_of_split? hsplit, mem_of_document? hheader,
    mem_of_document? hclaims, hmac⟩

/-- A token is signed for its text before the last point, which has no star. -/
theorem halves_of_signedClaims? {s : Signer} {token : String} {j : Json}
    (h : signedClaims? s token = some j) :
    ∃ input signature, halves? token = some (input, signature) ∧ '*' ∉ input ∧
      Text.Alphabet.url.decode? signature =
        some (s.signAccess (Text.utf8 (String.ofList input))) := by
  obtain ⟨first, claims, signature, rfl, hfirst, hclaims, hmac⟩ := parts_of_signedClaims? h
  have hpoint : '.' ∉ signature := fun hm =>
    absurd (Text.Alphabet.mem_of_decode? hmac _ hm) (by decide)
  refine ⟨first ++ '.' :: claims, signature, halves?_append hpoint _, ?_, hmac⟩
  simp only [List.mem_append, List.mem_cons, not_or]
  exact ⟨fun hm => absurd (hfirst _ hm) (by decide), by decide,
    fun hm => absurd (hclaims _ hm) (by decide)⟩

theorem signedClaims?_of_verify {s : Signer} {now : Int} {token : String} {c : AccessClaims}
    (h : verify s now token = .ok c) : ∃ j, signedClaims? s token = some j := by
  unfold verify at h
  split at h
  next => cases h
  next j hj => exact ⟨j, hj⟩

/-- A token that is accepted is signed for its text before the last point, which has no star. -/
theorem halves_of_verify {s : Signer} {now : Int} {token : String} {c : AccessClaims}
    (h : verify s now token = .ok c) :
    ∃ input signature, halves? token = some (input, signature) ∧ '*' ∉ input ∧
      Text.Alphabet.url.decode? signature =
        some (s.signAccess (Text.utf8 (String.ofList input))) := by
  obtain ⟨_, hj⟩ := signedClaims?_of_verify h
  exact halves_of_signedClaims? hj

/-- A token that is accepted is not itself a refresh token: after its first point there is
another. -/
theorem refresh_verify_of_verify {s : Signer} {now : Int} {token : String} {c : AccessClaims}
    (h : verify s now token = .ok c) :
    RefreshToken.verify s token = .error .invalidTokenProvided := by
  obtain ⟨j, hj⟩ := signedClaims?_of_verify h
  obtain ⟨first, claims, signature, rfl, hfirst, -⟩ := parts_of_signedClaims? hj
  have hpoint : '.' ∉ first := fun hm => absurd (hfirst _ hm) (by decide)
  have hsplit : RefreshToken.splitOnce? '.'
      (String.ofList ((first ++ '.' :: claims) ++ '.' :: signature)).toList =
      some (first, claims ++ '.' :: signature) := by
    simpa using RefreshToken.splitOnce?_append hpoint (claims ++ '.' :: signature)
  have hdecode : Text.Alphabet.url.decode? (claims ++ '.' :: signature) = none :=
    Option.eq_none_iff_forall_ne_some.2 fun _ hmac =>
      absurd (Text.Alphabet.mem_of_decode? hmac '.' (by simp)) (by decide)
  rw [RefreshToken.verify, RefreshToken.accountOf?, hsplit]
  simp only [Option.bind_eq_bind, Option.bind_some, hdecode, Option.bind_none,
    Option.bind_fun_none]

/-- A text with a star is nothing that an access token signs, whatever signature is put after it. -/
theorem verify_of_star_mem {text : String} (h : '*' ∈ text.toList) {signature : List Char}
    (hpoint : '.' ∉ signature) (s : Signer) (now : Int) :
    verify s now (text ++ "." ++ String.ofList signature) = .error .invalidTokenProvided := by
  have htoken : text ++ "." ++ String.ofList signature =
      String.ofList (text.toList ++ '.' :: signature) := by
    simp [← String.toList_inj]
  have hnone : signedClaims? s (text ++ "." ++ String.ofList signature) = none := by
    refine Option.eq_none_iff_forall_ne_some.2 fun _ hj => ?_
    obtain ⟨input, _, hhalves, hstar, -⟩ := halves_of_signedClaims? hj
    rw [htoken, halves?_append hpoint, Option.some.injEq, Prod.mk.injEq] at hhalves
    exact hstar (hhalves.1 ▸ h)
  rw [verify, hnone]

end AccessToken

namespace Signer

variable (s : Signer)

/-- Bytes are the message of a refresh token that is accepted. -/
def SignsAsRefresh (raw : List UInt8) : Prop :=
  ∃ token user, RefreshToken.verify s token = .ok user ∧ RefreshToken.message? token = some raw

/-- Bytes are what an access token signs that is accepted at some time. -/
def SignsAsAccess (raw : List UInt8) : Prop :=
  ∃ token now claims input signature, AccessToken.verify s now token = .ok claims ∧
    AccessToken.halves? token = some (input, signature) ∧
    raw = Text.utf8 (String.ofList input)

/-- The kinds of tokens are kept apart by what is signed, under every secret and algorithm. No
bytes are signed as both. An access token that is accepted, with a signature of the text before its
last point, is no refresh token if this text is put into base 64 and the signature after it. And the
message of a refresh token that is accepted, taken as text with the signature of the token after it,
is no access token at any time; no access token that is accepted has this text before its last point
and this signature after it. -/
theorem kinds_apart :
    (∀ raw, ¬ (s.SignsAsRefresh raw ∧ s.SignsAsAccess raw)) ∧
      (∀ token now claims, AccessToken.verify s now token = .ok claims →
        ∃ input signature, AccessToken.halves? token = some (input, signature) ∧
          Text.Alphabet.url.decode? signature =
            some (s.signAccess (Text.utf8 (String.ofList input))) ∧
          RefreshToken.verify s (Text.base64 (Text.utf8 (String.ofList input)) ++ "." ++
            String.ofList signature) = .error .invalidTokenProvided) ∧
      ∀ token user, RefreshToken.verify s token = .ok user →
        ∃ text signature, RefreshToken.message? token = some (Text.utf8 text) ∧
          RefreshToken.signature? token = some signature ∧
          Text.Alphabet.url.decode? signature = some (s.signRefresh (Text.utf8 text)) ∧
          (∀ now, AccessToken.verify s now (text ++ "." ++ String.ofList signature) =
            .error .invalidTokenProvided) ∧
          ∀ access now claims, AccessToken.verify s now access = .ok claims →
            AccessToken.halves? access ≠ some (text.toList, signature) := by
  refine ⟨?_, ?_, ?_⟩
  · rintro raw ⟨⟨token, user, hrefresh, hraw⟩, access, now, claims, input, signature, haccess,
      hhalves, rfl⟩
    obtain ⟨text, _, hmessage, hstar, -⟩ := RefreshToken.parts_of_verify hrefresh
    obtain ⟨_, _, hhalves', hstar', -⟩ := AccessToken.halves_of_verify haccess
    obtain ⟨rfl, rfl⟩ := Prod.mk.inj (Option.some.inj (hhalves.symm.trans hhalves'))
    have htext := Text.utf8_injective (Option.some.inj (hmessage.symm.trans hraw))
    rw [htext, String.toList_ofList] at hstar
    exact hstar' hstar
  · intro token now claims h
    obtain ⟨input, signature, hhalves, hstar, hmac⟩ := AccessToken.halves_of_verify h
    refine ⟨input, signature, hhalves, hmac, ?_⟩
    exact RefreshToken.verify_of_star_notMem (by rwa [String.toList_ofList]) s signature
  · intro token user h
    obtain ⟨text, signature, hmessage, hstar, hsignature, hmac⟩ := RefreshToken.parts_of_verify h
    have hpoint : '.' ∉ signature := fun hm =>
      absurd (Text.Alphabet.mem_of_decode? hmac _ hm) (by decide)
    refine ⟨text, signature, hmessage, hsignature, hmac,
      AccessToken.verify_of_star_mem hstar hpoint s, fun access now claims haccess hhalves => ?_⟩
    obtain ⟨_, _, hhalves', hstar', -⟩ := AccessToken.halves_of_verify haccess
    obtain ⟨rfl, -⟩ := Prod.mk.inj (Option.some.inj (hhalves.symm.trans hhalves'))
    exact hstar' hstar

/-- Under HMAC over SHA-256, where one function signs both: a token of each kind that is accepted,
the bytes that they sign, and the access token put together anew, which is refused. -/
theorem kinds_apart_hs256 :
    let s : Signer := ⟨"secret", .hs256⟩
    let claims : AccessClaims := ⟨1, .customer, false, 0, 60⟩
    let input := Text.utf8 (String.ofList (AccessToken.signingInput s claims))
    AccessToken.verify s 0 (AccessToken.encode s claims) = .ok claims ∧ s.SignsAsAccess input ∧
      RefreshToken.verify s (RefreshToken.sign s 1 "n") = .ok 1 ∧
      s.SignsAsRefresh (RefreshToken.message 1 "n") ∧ input ≠ RefreshToken.message 1 "n" ∧
      RefreshToken.verify s (RefreshToken.ofMessage s input) = .error .invalidTokenProvided := by
  intro s claims input
  have hclaims : claims.Fit := ⟨by decide, by decide, by decide⟩
  have haccess : AccessToken.verify s 0 (AccessToken.encode s claims) = .ok claims :=
    AccessToken.verify_encode s hclaims (by decide)
  have hrefresh : RefreshToken.verify s (RefreshToken.sign s 1 "n") = .ok 1 :=
    RefreshToken.verify_sign (by decide) (by decide)
  have hhalves : AccessToken.halves? (AccessToken.encode s claims) =
      some (AccessToken.signingInput s claims, Text.Alphabet.url.encode (s.signAccess input)) :=
    AccessToken.halves?_append (Text.point_notMem_encode _) _
  have hsigned : s.SignsAsAccess input := ⟨_, 0, claims, _, _, haccess, hhalves, rfl⟩
  have hmessage : s.SignsAsRefresh (RefreshToken.message 1 "n") :=
    ⟨_, 1, hrefresh, RefreshToken.message?_ofMessage s _⟩
  obtain ⟨hapart, hrepackaged, -⟩ := s.kinds_apart
  refine ⟨haccess, hsigned, hrefresh, hmessage, fun h => hapart _ ⟨h ▸ hmessage, hsigned⟩, ?_⟩
  obtain ⟨_, _, hhalves', -, hverify⟩ := hrepackaged _ 0 claims haccess
  obtain ⟨rfl, rfl⟩ := Prod.mk.inj (Option.some.inj (hhalves.symm.trans hhalves'))
  exact hverify

end Signer

end AuthCore
