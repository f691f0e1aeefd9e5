import AuthCore.Error.Auth
import AuthCore.Json.Printer
import AuthCore.Json.Reader
import AuthCore.Role
import AuthCore.Token.Signer

/-!
# Access tokens

An access token is a JSON web token: a header, the claims and a signature, each in base 64, with
points between them. It is accepted if its signature is right, its header names the configured
algorithm, its claims fit and it has not expired.
-/

namespace AuthCore

/-- What an access token says. -/
structure AccessClaims where
  /-- The number of the account. -/
  userId : Int
  /-- The role when the token was made. -/
  role : Role
  /-- Whether the token may only change the password. -/
  limited : Bool
  /-- When the token was made, in seconds since 1970. -/
  issuedAt : Int
  /-- The last second at which the token is accepted. -/
  expiresAt : Int
  deriving DecidableEq, Repr

namespace AccessClaims

/-- The written form. -/
def toJson (c : AccessClaims) : Json :=
  .object
    [("user_id", .int c.userId), ("role", c.role.toJson), ("limited", .bool c.limited),
     ("iat", .int c.issuedAt), ("exp", .int c.expiresAt)]

/-- Reads the written form. -/
def ofJson? (j : Json) : Option AccessClaims := do
  let fs ← j.fields? ["user_id", "role", "limited", "iat", "exp"]
  return {
    userId := ← fs.need "user_id" (Json.signed? 32)
    role := ← fs.need "role" Role.ofJson?
    limited := ← fs.need "limited" Json.bool?
    issuedAt := ← fs.need "iat" (Json.signed? 64)
    expiresAt := ← fs.need "exp" (Json.signed? 64) }

/-- The greatest signed number of 64 bits. -/
def lastSecond : Int := 2 ^ 63 - 1

/-- The claims of a token made now for a number of seconds; the expiry stops at the greatest number
that can be written. -/
def issue (userId : Int) (role : Role) (limited : Bool) (now : Int) (lifetime : Nat) :
    AccessClaims :=
  ⟨userId, role, limited, now, min (now + min (lifetime : Int) lastSecond) lastSecond⟩

end AccessClaims

namespace AccessToken

/-! ### Making -/

/-- The header of a token. -/
def header (a : Algorithm) : Json := .object [("typ", .string "JWT"), ("alg", .string a.name)]

/-- The base-64 text of a document. -/
def part (j : Json) : List Char := Text.Alphabet.url.encode (Text.utf8 j.text)

/-- The part of a token that is signed. -/
def signingInput (s : Signer) (c : AccessClaims) : List Char :=
  part (header s.algorithm) ++ '.' :: part c.toJson

/-- The token with given claims. -/
def encode (s : Signer) (c : AccessClaims) : String :=
  let input := signingInput s c
  String.ofList
    (input ++ '.' :: Text.Alphabet.url.encode (s.signAccess (Text.utf8 (String.ofList input))))

/-! ### Checking -/

/-- The three parts of a token; points before the last two belong to the first part. -/
def split? (token : String) : Option (List Char × List Char × List Char) :=
  match (token.toList.splitOn '.').reverse with
  | signature :: claims :: first :: more =>
    some (['.'].intercalate (first :: more).reverse, claims, signature)
  | _ => none

/-- The document that a part stands for. -/
def document? (part : List Char) : Option Json := do
  Json.ofText? (← Text.ofUtf8? (← Text.Alphabet.url.decode? part))

/-- The members of a header that are texts. -/
def textMembers : List String :=
  ["typ", "cty", "jku", "kid", "x5u", "x5t", "x5t#S256", "enc", "zip", "url", "nonce"]

/-- The members of a header that are lists of texts. -/
def listMembers : List String := ["x5c", "crit"]

/-- Whether a member fits into a header: the known ones have their types or are `null`, every other
one is a text. -/
def memberFits (m : String × Json) : Bool :=
  if m.1 = "alg" then true
  else if textMembers.contains m.1 then m.2 matches .null || m.2.string?.isSome
  else if listMembers.contains m.1 then
    m.2 matches .null || (m.2.list? Json.string?).isSome
  else if m.1 = "jwk" then m.2 matches .null
  else m.2.string?.isSome

/-- The algorithm that a header names. -/
def algorithm? (j : Json) : Option Algorithm :=
  match j with
  | .object ms => do
    let known := "alg" :: "jwk" :: (textMembers ++ listMembers)
    let fs ← (Json.object ms).fields? known
    if ms.all memberFits then fs.need "alg" (Json.variant? Algorithm.ofName?) else none
  | _ => none

/-- Whether a value for the start of validity can be passed over. -/
def startFits : Json → Bool
  | .array (_ :: _) | .object (_ :: _) => false
  | _ => true

/-- Whether a value for the subject can be passed over. -/
def subjectFits : Json → Bool
  | .array _ | .object _ => false
  | _ => true

/-- Whether a value names an audience. None is configured, so a token that has one is refused. -/
def namesAudience : Json → Bool
  | .string _ => true
  | .array items => items.all fun j => j.string?.isSome
  | _ => false

/-- Checks the registered claims against the clock. -/
def checkRegistered (now : Int) (j : Json) : Except AuthError Unit := do
  let some fs := j.fields? ["exp", "nbf", "sub", "iss", "aud"] | throw .invalidTokenProvided
  if !((fs.lookup "nbf").all startFits && (fs.lookup "sub").all subjectFits) then
    throw .invalidTokenProvided
  match fs.lookup "exp" with
  | some (.int e) =>
    if e < 0 then throw .invalidTokenProvided
    else if e < now then throw .tokenExpired
    else if (fs.lookup "aud").any namesAudience then throw .invalidTokenProvided
    else return ()
  | _ => throw .invalidTokenProvided

/-- The claims of a token whose header and signature are right. -/
def signedClaims? (s : Signer) (token : String) : Option Json := do
  let (first, claims, signature) ← split? token
  let algorithm ← algorithm? (← document? first)
  if algorithm ≠ s.algorithm then none
  let mac ← Text.Alphabet.url.decode? signature
  let input := String.ofList (first ++ '.' :: claims)
  if mac = s.signAccess (Text.utf8 input) then document? claims else none

/-- The claims of a token that is accepted at a time given in seconds. -/
def verify (s : Signer) (now : Int) (token : String) : Except AuthError AccessClaims :=
  match signedClaims? s token with
  | none => .error .invalidTokenProvided
  | some j =>
    match AccessClaims.ofJson? j with
    | none => .error .invalidTokenProvided
    | some c => (checkRegistered now j).map fun _ => c

end AccessToken

end AuthCore
