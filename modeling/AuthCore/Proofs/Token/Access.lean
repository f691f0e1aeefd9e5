import AuthCore.Proofs.Json.Decode
import AuthCore.Proofs.Json.Document
import AuthCore.Proofs.Text.Base64
import AuthCore.Proofs.Token.Refresh
import AuthCore.Token.Access

/-!
# Access tokens verify

The signer that made an access token accepts it up to the last second that it is made for, and reads
back what it says; from then on it says that the token has expired. This is so for all numbers of as
many bits as they may have, also for a token that says that it was made before 1970. Every
configuration with a secret and a known algorithm has such a signer
(`Tokens.accepted_until_expiry`).
-/

namespace AuthCore

namespace AccessClaims

/-- Claims whose numbers have as many bits as they may have. -/
structure Fit (c : AccessClaims) : Prop where
  userId : RefreshToken.Fits c.userId
  issuedAt : -lastSecond - 1 ≤ c.issuedAt ∧ c.issuedAt ≤ lastSecond
  expiresAt : 0 ≤ c.expiresAt ∧ c.expiresAt ≤ lastSecond

/-- Claims whose numbers have no more bits than they may have. These can be written also where no
token can be good any more. -/
structure InRange (c : AccessClaims) : Prop where
  userId : RefreshToken.Fits c.userId
  issuedAt : -lastSecond - 1 ≤ c.issuedAt ∧ c.issuedAt ≤ lastSecond
  expiresAt : -lastSecond - 1 ≤ c.expiresAt ∧ c.expiresAt ≤ lastSecond

variable {c : AccessClaims}

theorem Fit.inRange (h : c.Fit) : c.InRange :=
  ⟨h.userId, h.issuedAt, le_trans (by decide) h.expiresAt.1, h.expiresAt.2⟩

theorem isPlain_toJson (h : c.InRange) : c.toJson.IsPlain := by
  obtain ⟨⟨hu, hu'⟩, ⟨hi, hi'⟩, ⟨he, he'⟩⟩ := h
  unfold lastSecond at hi hi' he he'
  refine ⟨⟨by omega, by omega⟩, trivial, trivial, ⟨by omega, by omega⟩, ⟨by omega, by omega⟩,
    trivial⟩

open Json.Fields in
theorem ofJson?_toJson (h : c.InRange) : ofJson? c.toJson = some c := by
  obtain ⟨hid, ⟨hi, hi'⟩, ⟨he, he'⟩⟩ := h
  unfold lastSecond at hi hi' he he'
  have hissued : Json.signed? 64 (.int c.issuedAt) = some c.issuedAt :=
    if_pos ⟨by omega, by omega⟩
  have hexpires : Json.signed? 64 (.int c.expiresAt) = some c.expiresAt :=
    if_pos ⟨by omega, by omega⟩
  have hrole : Role.ofJson? c.role.toJson = some c.role := by cases c.role <;> rfl
  exact fields?_bind rfl <| need_bind rfl (if_pos hid) <| need_bind rfl hrole <|
    need_bind rfl rfl <| need_bind rfl hissued <| need_bind rfl hexpires rfl

/-- A token is good in the second in which it is made, if this second can be written. -/
theorem le_expiresAt_issue (user : Int) (role : Role) (limited : Bool) {now : Int}
    (hnow : now ≤ lastSecond) (lifetime : Nat) :
    now ≤ (issue user role limited now lifetime).expiresAt := by
  have hlast : 0 ≤ lastSecond := by decide
  show now ≤ min (now + min (lifetime : Int) lastSecond) lastSecond
  omega

/-- A token is good for its whole lifetime, as far as the end of it can be written. -/
theorem expiresAt_issue (user : Int) (role : Role) (limited : Bool) {now : Int} (hnow : 0 ≤ now)
    (lifetime : Nat) :
    (issue user role limited now lifetime).expiresAt = min (now + lifetime) lastSecond := by
  show min (now + min (lifetime : Int) lastSecond) lastSecond = min (now + lifetime) lastSecond
  omega

/-- Claims made now fit, if now can be written. -/
theorem fit_issue {user : Int} (hu : RefreshToken.Fits user) (role : Role) (limited : Bool)
    {now : Int} (hnow : 0 ≤ now ∧ now ≤ lastSecond) (lifetime : Nat) :
    (issue user role limited now lifetime).Fit := by
  have hlate : (issue user role limited now lifetime).expiresAt ≤ lastSecond :=
    Int.min_le_right (now + min (lifetime : Int) lastSecond) lastSecond
  have hearly := le_expiresAt_issue user role limited hnow.2 lifetime
  have hlast : -lastSecond - 1 ≤ 0 := by decide
  exact ⟨hu, ⟨Int.le_trans hlast hnow.1, hnow.2⟩, Int.le_trans hnow.1 hearly, hlate⟩

end AccessClaims

namespace AccessToken

theorem document?_part {j : Json} (hj : j.IsPlain) : document? (part j) = some j := by
  rw [document?, part, Text.Alphabet.decode?_encode, Option.bind_eq_bind, Option.bind_some,
    Text.ofUtf8?_utf8, Option.bind_eq_bind, Option.bind_some, Json.ofText?_text j hj]

theorem split?_encode (s : Signer) (c : AccessClaims) : split? (encode s c) =
    some (part (header s.algorithm), part c.toJson, Text.Alphabet.url.encode
      (s.signAccess (Text.utf8 (String.ofList (signingInput s c))))) := by
  let signature := Text.Alphabet.url.encode
    (s.signAccess (Text.utf8 (String.ofList (signingInput s c))))
  have hparts : (encode s c).toList =
      ['.'].intercalate [part (header s.algorithm), part c.toJson, signature] := by
    simp [encode, signingInput, List.intercalate, signature]
  have hpoints : ∀ cs ∈ [part (header s.algorithm), part c.toJson, signature], '.' ∉ cs := by
    simp only [List.forall_mem_cons]
    exact ⟨Text.point_notMem_encode _, Text.point_notMem_encode _, Text.point_notMem_encode _,
      nofun⟩
  rw [split?, hparts, List.splitOn_intercalate '.' hpoints (List.cons_ne_nil _ _)]
  simp [List.intercalate, signature]

theorem algorithm?_header (a : Algorithm) : algorithm? (header a) = some a := by
  cases a <;> rfl

theorem isPlain_header (a : Algorithm) : (header a).IsPlain := ⟨trivial, trivial, trivial⟩

/-- Of the registered claims a token has only its expiry, which is the last second that is let
pass. -/
theorem checkRegistered_toJson {c : AccessClaims} (hc : 0 ≤ c.expiresAt) (now : Int) :
    checkRegistered now c.toJson =
      if now ≤ c.expiresAt then .ok () else .error .tokenExpired := by
  have hfields : c.toJson.fields? ["exp", "nbf", "sub", "iss", "aud"] =
      some [("exp", .int c.expiresAt)] := rfl
  rw [checkRegistered, hfields]
  show (if c.expiresAt < 0 then _ else if c.expiresAt < now then _ else _ :
    Except AuthError Unit) = _
  rw [if_neg (by omega)]
  split
  next hlate => exact (if_neg (by omega)).symm
  next hearly => exact (if_pos (by omega)).symm

/-- The claims of a token that the signer has made are those it was made of. -/
theorem signedClaims?_encode (s : Signer) {c : AccessClaims} (hc : c.Fit) :
    signedClaims? s (encode s c) = some c.toJson := by
  have hinput : part (header s.algorithm) ++ '.' :: part c.toJson = signingInput s c := rfl
  simp only [signedClaims?, split?_encode, Option.bind_eq_bind, Option.bind_some,
    document?_part (isPlain_header _), algorithm?_header, Text.Alphabet.decode?_encode, hinput,
    document?_part (AccessClaims.isPlain_toJson hc.inRange)]
  exact (if_neg (not_not.2 rfl)).trans (if_pos trivial)

/-- A signer accepts its own token as long as it has not expired. -/
theorem verify_encode_eq (s : Signer) {c : AccessClaims} (hc : c.Fit) (now : Int) :
    verify s now (encode s c) =
      if now ≤ c.expiresAt then .ok c else .error .tokenExpired := by
  rw [verify, signedClaims?_encode s hc]
  simp only [AccessClaims.ofJson?_toJson hc.inRange, checkRegistered_toJson hc.expiresAt.1]
  split
  next => rfl
  next => rfl

/-- A signer accepts its own token until the token expires. -/
theorem verify_encode (s : Signer) {c : AccessClaims} (hc : c.Fit) {now : Int}
    (hnow : now ≤ c.expiresAt) : verify s now (encode s c) = .ok c := by
  rw [verify_encode_eq s hc, if_pos hnow]

end AccessToken

namespace Algorithm

theorem ofName?_name (a : Algorithm) : ofName? a.name = some a := by
  cases a <;> rfl

/-- The name of an algorithm is read in any case. -/
theorem parse_of_upper {configured : String} {a : Algorithm} (h : upper configured = a.name) :
    parse configured = .ok a := by
  rw [parse, h, ofName?_name]

end Algorithm

namespace Tokens

/-- A secret that is not empty and the name of an algorithm are all that is needed to issue
tokens. -/
theorem ofConfig_eq_ok {c : JwtConfig} (hsecret : c.secretKey ≠ "") {a : Algorithm}
    (ha : Algorithm.upper c.algorithm = a.name) :
    ofConfig c = .ok ⟨⟨c.secretKey, a⟩, c.accessTokenLifetime, c.refreshTokenLifetime⟩ := by
  rw [ofConfig, Signer.new, if_neg hsecret, Algorithm.parse_of_upper ha]
  rfl

/-- Under every configuration with a secret and a known algorithm tokens can be issued. An access
token made of any claims reads back as these claims up to the second in which it expires, and after
that it is said to have expired. A token made at a moment expires when its lifetime is over, or in
the last second that can be written, so it is good at that moment and through its lifetime; it reads
back as the user, the role and the limit that it was made for. -/
theorem accepted_until_expiry (c : JwtConfig) (hsecret : c.secretKey ≠ "") (a : Algorithm)
    (ha : Algorithm.upper c.algorithm = a.name) :
    ∃ t, ofConfig c = .ok t ∧ t.signer = ⟨c.secretKey, a⟩ ∧
      (∀ claims : AccessClaims, claims.Fit → ∀ now,
        AccessToken.verify t.signer now (AccessToken.encode t.signer claims) =
          if now ≤ claims.expiresAt then .ok claims else .error .tokenExpired) ∧
      ∀ user role limited (m : Moment), RefreshToken.Fits user →
        m.second ≤ AccessClaims.lastSecond →
        let expiry := min (m.second + c.accessTokenLifetime) AccessClaims.lastSecond
        m.second ≤ expiry ∧ ∀ now,
          AccessToken.verify t.signer now (t.access user role limited m) =
            if now ≤ expiry then .ok ⟨user, role, limited, m.second, expiry⟩
            else .error .tokenExpired := by
  refine ⟨_, ofConfig_eq_ok hsecret ha, rfl, fun claims hclaims now => ?_, ?_⟩
  · exact AccessToken.verify_encode_eq _ hclaims now
  · intro user role limited m hu hlast expiry
    have hm : 0 ≤ m.second := Int.natCast_nonneg _
    have hexpiry : (AccessClaims.issue user role limited m.second c.accessTokenLifetime).expiresAt =
        expiry := AccessClaims.expiresAt_issue user role limited hm _
    have hclaims : AccessClaims.issue user role limited m.second c.accessTokenLifetime =
        ⟨user, role, limited, m.second, expiry⟩ := by
      rw [← hexpiry]
      rfl
    have hfit := AccessClaims.fit_issue hu role limited ⟨hm, hlast⟩ c.accessTokenLifetime
    refine ⟨?_, fun now => ?_⟩
    · rw [← hexpiry]
      exact AccessClaims.le_expiresAt_issue user role limited hlast _
    · rw [access, AccessToken.verify_encode_eq _ hfit now, hexpiry, hclaims]

/-- The smallest numbers there are, under the longest algorithm: a token that expires in the first
second of 1970 is good in that second, and no longer. -/
theorem accepted_until_expiry_first :
    let claims : AccessClaims := ⟨-2 ^ 31, .audit, true, -2 ^ 63, 0⟩
    ∃ t, ofConfig { secretKey := "s", algorithm := "hs512" } = .ok t ∧
      AccessToken.verify t.signer 0 (AccessToken.encode t.signer claims) = .ok claims ∧
      AccessToken.verify t.signer 1 (AccessToken.encode t.signer claims) =
        .error .tokenExpired := by
  intro claims
  have hupper : Algorithm.upper "hs512" = Algorithm.hs512.name := by decide
  obtain ⟨t, ht, -, hverify, -⟩ := accepted_until_expiry
    { secretKey := "s", algorithm := "hs512" } (by decide) .hs512 hupper
  have hfit : claims.Fit := ⟨by decide, by decide, by decide⟩
  refine ⟨t, ht, ?_, ?_⟩
  · exact (hverify claims hfit 0).trans (if_pos (by decide))
  · exact (hverify claims hfit 1).trans (if_neg (by decide))

end Tokens

end AuthCore
