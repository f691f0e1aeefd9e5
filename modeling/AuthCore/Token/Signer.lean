import AuthCore.Config.Basic
import AuthCore.Digest.Hmac

/-!
# Signing

The secret and the algorithm that sign tokens. Access tokens are signed with the configured
algorithm, refresh tokens always with HMAC over SHA-256; both use the one secret.
-/

namespace AuthCore

/-- The algorithms that can sign an access token. -/
inductive Algorithm where
  | hs256
  | hs384
  | hs512
  deriving DecidableEq, Repr

namespace Algorithm

/-- The name in the header of a token. -/
def name : Algorithm → String
  | hs256 => "HS256"
  | hs384 => "HS384"
  | hs512 => "HS512"

/-- The algorithm with a name. -/
def ofName? : String → Option Algorithm
  | "HS256" => some hs256
  | "HS384" => some hs384
  | "HS512" => some hs512
  | _ => none

/-- The digest of an algorithm. -/
def hash : Algorithm → Digest.Hash
  | hs256 => .sha256
  | hs384 => .sha384
  | hs512 => .sha512

/-- A text with its ASCII letters in upper case. -/
def upper (s : String) : String := String.ofList (s.toList.map Char.toUpper)

/-- The algorithm that a configuration names, in any case. -/
def parse (configured : String) : Except ConfigFault Algorithm :=
  match ofName? (upper configured) with
  | some a => .ok a
  | none => .error (.unsupportedAlgorithm (upper configured))

end Algorithm

/-- What signs and checks tokens. -/
structure Signer where
  /-- The secret. -/
  secret : String
  /-- The algorithm of access tokens. -/
  algorithm : Algorithm
  deriving DecidableEq

namespace Signer

/-- The signer that a configuration asks for; its secret must not be empty. -/
def new (c : JwtConfig) : Except ConfigFault Signer :=
  if c.secretKey = "" then .error .emptySecret
  else (Algorithm.parse c.algorithm).map fun a => ⟨c.secretKey, a⟩

/-- The signature of an access token. -/
def signAccess (s : Signer) (message : List UInt8) : List UInt8 :=
  s.algorithm.hash.hmac (Text.utf8 s.secret) message

/-- The signature of a refresh token. -/
def signRefresh (s : Signer) (message : List UInt8) : List UInt8 :=
  Digest.Hash.sha256.hmac (Text.utf8 s.secret) message

end Signer

end AuthCore
