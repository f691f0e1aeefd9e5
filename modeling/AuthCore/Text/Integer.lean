import AuthCore.Power

/-!
# Decimal integers in text

Reading takes an optional sign and at least one ASCII digit, and nothing else; leading zeros are
allowed. Printing uses a minus sign for negative numbers and no leading zeros.
-/

namespace AuthCore.Text

/-- The value of an ASCII digit. -/
def digit? (c : Char) : Option Nat :=
  if '0' ≤ c ∧ c ≤ '9' then some (c.toNat - '0'.toNat) else none

/-- The number that a list of ASCII digits writes, read after the digits of `acc`. -/
def foldDigits (acc : Nat) : List Char → Option Nat
  | [] => some acc
  | c :: cs => (digit? c).bind fun d => foldDigits (acc * 10 + d) cs

/-- One or more ASCII digits. -/
def natural? : List Char → Option Nat
  | [] => none
  | cs => foldDigits 0 cs

/-- An optional sign and one or more ASCII digits. -/
def integer? : List Char → Option Int
  | '-' :: cs => (natural? cs).map fun n => -(n : Int)
  | '+' :: cs => (natural? cs).map fun n => (n : Int)
  | cs => (natural? cs).map fun n => (n : Int)

/-- A signed integer of `bits` bits. -/
def signed? (bits : Nat) (s : String) : Option Int :=
  (integer? s.toList).filter fun i => -(2 ^ (bits - 1) : Int) ≤ i && i < (2 ^ (bits - 1) : Int)

/-- A number without a minus sign that fits in `bits` bits. -/
def unsigned? (bits : Nat) (s : String) : Option Nat :=
  let digits := match s.toList with
    | '+' :: cs => cs
    | cs => cs
  (natural? digits).filter fun n => n < 2 ^ bits

/-- The decimal digits of a number, most significant first. -/
def naturalDigits (n : Nat) : List Char :=
  if n < 10 then [Char.ofNat ('0'.toNat + n)]
  else naturalDigits (n / 10) ++ [Char.ofNat ('0'.toNat + n % 10)]
termination_by n

/-- The decimal text of an integer. -/
def integerDigits : Int → List Char
  | .ofNat n => naturalDigits n
  | .negSucc n => '-' :: naturalDigits (n + 1)

/-- The decimal text of an integer. -/
def showInt (i : Int) : String := String.ofList (integerDigits i)

/-- The decimal text of a number. -/
def showNat (n : Nat) : String := String.ofList (naturalDigits n)

/-- The text of a number, filled up with zeros on the left to at least `width` digits. -/
def paddedDigits (width n : Nat) : List Char :=
  let ds := naturalDigits n
  List.replicate (width - ds.length) '0' ++ ds

end AuthCore.Text
