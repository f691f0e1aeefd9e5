import AuthCore.Digest.Blowfish
import AuthCore.Error.Fault
import AuthCore.Text.Base64

/-!
# Passwords

Passwords are kept as bcrypt hashes. Only the first 72 bytes of a password and the zero byte behind
it count. A malformed hash matches no password.
-/

namespace AuthCore.Password

open Digest

/-- The least and the greatest cost of a hash. -/
def costs : Nat × Nat := (4, 31)

/-- The cost used where none is configured. -/
def defaultCost : Nat := 12

/-- Whether hashes of a cost can be made. -/
def costAllowed (cost : Nat) : Bool := costs.1 ≤ cost && cost ≤ costs.2

/-- The bytes of a password that count. -/
def keyBytes (password : String) : List UInt8 := (Text.utf8 password ++ [0]).take 72

/-- The text enciphered by the cipher that a password sets up, as words. -/
def magic : List (UInt32 × UInt32) :=
  [(0x4f727068, 0x65616e42), (0x65686f6c, 0x64657253), (0x63727944, 0x6f756274)]

/-- The four bytes of a word. -/
def wordBytes (x : UInt32) : List UInt8 :=
  [(x >>> 24).toUInt8, (x >>> 16).toUInt8, (x >>> 8).toUInt8, x.toUInt8]

/-- The 23 bytes of the hash of a password. -/
def digest (cost : Nat) (salt : List UInt8) (password : String) : List UInt8 :=
  let t := Blowfish.setup cost salt.toArray (keyBytes password).toArray
  (magic.flatMap fun (l, r) =>
    let (l, r) := Blowfish.encipherTimes t 64 l r
    wordBytes l ++ wordBytes r).take 23

/-- The text of a hash made with a salt of 16 bytes. -/
def hash (cost : Nat) (salt : List UInt8) (password : String) : Except InternalFault String :=
  if costAllowed cost then
    .ok (String.ofList
      (['$', '2', 'b', '$'] ++ Text.paddedDigits 2 cost ++ ['$'] ++ Text.Alphabet.crypt.encode salt
        ++ Text.Alphabet.crypt.encode (digest cost salt password)))
  else .error .passwordHash

/-- The parts of the text of a hash. -/
structure Parsed where
  /-- The cost. -/
  cost : Nat
  /-- The salt. -/
  salt : List UInt8
  /-- The digest of the password. -/
  digest : List UInt8

/-- Takes the text of a hash apart: version, cost, and 53 characters of salt and digest, each behind
a dollar sign. -/
def parse? (text : String) : Option Parsed :=
  match (text.toList.splitOn '$').filter fun part => !part.isEmpty with
  | [version, cost, rest] => do
    if !(["2a", "2b", "2x", "2y"].map String.toList).contains version then none
    let cost ← Text.unsigned? 32 (String.ofList cost)
    if rest.length ≠ 53 || !costAllowed cost then none
    let salt ← Text.Alphabet.crypt.decode? (rest.take 22)
    let digest ← Text.Alphabet.crypt.decode? (rest.drop 22)
    return ⟨cost, salt, digest⟩
  | _ => none

/-- Whether a password has a hash. -/
def verify (password text : String) : Bool :=
  match parse? text with
  | some p => digest p.cost p.salt password == p.digest
  | none => false

end AuthCore.Password
