import AuthCore.Action
import AuthCore.Token.Refresh

/-!
# Random draws

Nonces, one-time codes, salts and passwords made from random numbers. Codes have no zeros, so that
none looks shorter than it is; nonces and passwords are made of letters and digits.
-/

namespace AuthCore

/-- A source of random numbers: the `k`-th number for a purpose. -/
structure Draws where
  /-- The numbers for the nonce. -/
  nonce : Nat → Nat
  /-- The numbers for the one-time code. -/
  code : Nat → Nat
  /-- The numbers for the salt. -/
  salt : Nat → Nat
  /-- The numbers for the password. -/
  password : Nat → Nat

namespace Draws

/-- Letters and digits. -/
def alphanumeric : List Char :=
  "ABCDEFGHIJKLMNOPQRSTUVWXYZabcdefghijklmnopqrstuvwxyz0123456789".toList

/-- The digits of a one-time code. -/
def codeDigits : List Char := "123456789".toList

/-- A text of a number of characters, each chosen by a random number. -/
def text (alphabet : List Char) (numbers : Nat → Nat) (length : Nat) : String :=
  String.ofList ((List.range length).map fun k =>
    alphabet.getD (numbers k % alphabet.length) 'A')

/-- What an operation at a time finds outside. -/
def moment (d : Draws) (now : Nat) : Moment where
  now := now
  nonce := text alphanumeric d.nonce RefreshToken.nonceLength
  code := text codeDigits d.code
  salt := (List.range 16).map fun k => UInt8.ofNat (d.salt k % 256)
  password := text alphanumeric d.password

/-- The next number of a sequence that looks random. -/
def next (n : Nat) : Nat := (n * 6364136223846793005 + 1442695040888963407) % 2 ^ 64

/-- A number that looks random, made from another one. -/
def scramble (n : Nat) : Nat := next (next (next (next n))) / 2 ^ 33

/-- Draws that all depend on one number. -/
def ofSeed (seed : Nat) : Draws where
  nonce := fun k => scramble (seed * 1000003 + k)
  code := fun k => scramble (seed * 1000003 + 100000 + k)
  salt := fun k => scramble (seed * 1000003 + 200000 + k)
  password := fun k => scramble (seed * 1000003 + 300000 + k)

/-- The number in eight bytes of a sequence, which starts again at its end. -/
def number (bytes : ByteArray) (k : Nat) : Nat :=
  (List.range 8).foldl (fun n i =>
    n * 256 + ((bytes.data[(8 * k + i) % bytes.size]?).getD 0).toNat) 0

/-- Draws from random bytes: each purpose takes every fourth number. -/
def ofBytes (bytes : ByteArray) : Draws where
  nonce := fun k => number bytes (4 * k)
  code := fun k => number bytes (4 * k + 1)
  salt := fun k => number bytes (4 * k + 2)
  password := fun k => number bytes (4 * k + 3)

end Draws

end AuthCore
