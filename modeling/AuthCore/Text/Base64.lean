/-!
# Base 64 without padding

Bytes as text over an alphabet of 64 characters, three bytes as four characters. The bits left over
in the last character are zero, and reading insists on that, so every list of bytes has exactly one
text.
-/

namespace AuthCore.Text

/-- Sixty-four different characters. -/
structure Alphabet where
  /-- The characters, by their value. -/
  chars : List Char
  /-- There are 64 of them. -/
  length_chars : chars.length = 64
  /-- They are all different. -/
  nodup_chars : chars.Nodup

namespace Alphabet

/-- The character of a value below 64. -/
def symbol (a : Alphabet) (n : Nat) : Char := a.chars.getD n ' '

/-- The value of a character. -/
def value? (a : Alphabet) (c : Char) : Option Nat := a.chars.idxOf? c

/-- The text of a list of bytes. -/
def encode (a : Alphabet) : List UInt8 → List Char
  | x :: y :: z :: rest =>
    let n := (x.toNat * 256 + y.toNat) * 256 + z.toNat
    a.symbol (n / 262144) :: a.symbol (n / 4096 % 64) :: a.symbol (n / 64 % 64) :: a.symbol (n % 64)
      :: encode a rest
  | [x, y] =>
    let n := x.toNat * 256 + y.toNat
    [a.symbol (n / 1024), a.symbol (n / 16 % 64), a.symbol (n % 16 * 4)]
  | [x] => [a.symbol (x.toNat / 4), a.symbol (x.toNat % 4 * 16)]
  | [] => []

/-- The bytes that a text stands for. -/
def decode? (a : Alphabet) : List Char → Option (List UInt8)
  | c :: d :: e :: f :: rest => do
    let p ← a.value? c
    let q ← a.value? d
    let r ← a.value? e
    let s ← a.value? f
    let bytes ← decode? a rest
    let n := ((p * 64 + q) * 64 + r) * 64 + s
    some (UInt8.ofNat (n / 65536) :: UInt8.ofNat (n / 256 % 256) :: UInt8.ofNat (n % 256) :: bytes)
  | [c, d, e] => do
    let p ← a.value? c
    let q ← a.value? d
    let r ← a.value? e
    let n := (p * 64 + q) * 64 + r
    if n % 4 = 0 then some [UInt8.ofNat (n / 1024), UInt8.ofNat (n / 4 % 256)] else none
  | [c, d] => do
    let p ← a.value? c
    let q ← a.value? d
    let n := p * 64 + q
    if n % 16 = 0 then some [UInt8.ofNat (n / 16)] else none
  | [_] => none
  | [] => some []

/-- The alphabet that is safe in addresses and file names. -/
def url : Alphabet where
  chars := "ABCDEFGHIJKLMNOPQRSTUVWXYZabcdefghijklmnopqrstuvwxyz0123456789-_".toList
  length_chars := by decide
  nodup_chars := by decide

/-- The alphabet of password hashes. -/
def crypt : Alphabet where
  chars := "./ABCDEFGHIJKLMNOPQRSTUVWXYZabcdefghijklmnopqrstuvwxyz0123456789".toList
  length_chars := by decide
  nodup_chars := by decide

end Alphabet

/-- The bytes of a text in UTF-8. -/
def utf8 (s : String) : List UInt8 := s.toUTF8.data.toList

/-- The text that bytes are the UTF-8 form of. -/
def ofUtf8? (bytes : List UInt8) : Option String := String.fromUTF8? ⟨bytes.toArray⟩

/-- The text of a list of bytes in the address-safe alphabet. -/
def base64 (bytes : List UInt8) : String := String.ofList (Alphabet.url.encode bytes)

end AuthCore.Text
