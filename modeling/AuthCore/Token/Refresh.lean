import AuthCore.Error.Auth
import AuthCore.Token.Signer

/-!
# Refresh tokens

A refresh token is a message and its signature, both in base 64, with a point between them. The
message is the number of the account, a star, and a nonce; only its signature makes it valid.
-/

namespace AuthCore.RefreshToken

/-- The number of characters in a nonce. -/
def nonceLength : Nat := 16

/-- The message of a token. -/
def message (userId : Int) (nonce : String) : List UInt8 :=
  Text.utf8 (Text.showInt userId ++ "*" ++ nonce)

/-- The token of a message. -/
def ofMessage (s : Signer) (raw : List UInt8) : String :=
  Text.base64 raw ++ "." ++ Text.base64 (s.signRefresh raw)

/-- The token for an account, made with a nonce. -/
def sign (s : Signer) (userId : Int) (nonce : String) : String :=
  ofMessage s (message userId nonce)

/-- The parts before and after the first occurrence of a character. -/
def splitOnce? (c : Char) (cs : List Char) : Option (List Char × List Char) :=
  match cs.dropWhile (· != c) with
  | [] => none
  | _ :: rest => some (cs.takeWhile (· != c), rest)

/-- The number of the account in a message. -/
def userId? (raw : List UInt8) : Option Int := do
  let text ← Text.ofUtf8? raw
  let (id, nonce) ← splitOnce? '*' text.toList
  if nonce.isEmpty then none else Text.signed? 32 (String.ofList id)

/-- The number of the account in a token whose signature is right. -/
def accountOf? (s : Signer) (token : String) : Option Int := do
  let (raw, signature) ← splitOnce? '.' token.toList
  let raw ← Text.Alphabet.url.decode? raw
  let signature ← Text.Alphabet.url.decode? signature
  if signature = s.signRefresh raw then userId? raw else none

/-- The number of the account that a token was made for. -/
def verify (s : Signer) (token : String) : Except AuthError Int :=
  match accountOf? s token with
  | some id => .ok id
  | none => .error .invalidTokenProvided

end AuthCore.RefreshToken
