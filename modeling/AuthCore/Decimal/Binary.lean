import AuthCore.Power

/-!
# Decimal numbers and binary floating point

A decimal number with an exponent, and the double-precision number nearest to it. All arithmetic is
exact, on natural numbers.
-/

namespace AuthCore

/-- The number `±digits · 10 ^ exponent`. A zero keeps its sign. -/
structure Decimal where
  /-- Whether a minus sign stands in front. -/
  negative : Bool
  /-- All digits, read as one number. -/
  digits : Nat
  /-- The power of ten that scales the digits. -/
  exponent : Int
  deriving DecidableEq, Repr, Inhabited

/-- The finite double `±mantissa · 2 ^ exponent`. -/
structure Binary64 where
  /-- The sign. -/
  negative : Bool
  /-- The significand, below `2 ^ 53`. -/
  mantissa : Nat
  /-- The power of two that scales the significand. -/
  exponent : Int
  deriving DecidableEq, Repr

namespace Decimal

/-- The quotient rounded to the nearest natural number, a half to the even neighbour. -/
def roundDiv (num den : Nat) : Nat :=
  let q := num / den
  let twice := 2 * (num % den)
  if twice < den then q else if twice > den then q + 1 else if q % 2 = 0 then q else q + 1

/-- `num / den` scaled by `2 ^ (-q)` and rounded. -/
def scaled (num den : Nat) (q : Int) : Nat :=
  if q ≥ 0 then roundDiv num (den * 2 ^ q.toNat) else roundDiv (num * 2 ^ (-q).toNat) den

/-- The significand and exponent nearest to a positive fraction, without an upper limit. -/
def nearestFraction (num den : Nat) : Nat × Int :=
  let guess : Int := (Nat.log2 num : Int) - (Nat.log2 den : Int) - 52
  let low : Int := max (guess - 1) (-1074)
  let q := if scaled num den low < 2 ^ 53 then low else max guess (-1074)
  let m := scaled num den q
  if m < 2 ^ 53 then (m, q) else (2 ^ 52, q + 1)

/-- The double nearest to a decimal number, a tie going to the even significand; `none` when the
number is beyond the largest finite double. -/
def toBinary (d : Decimal) : Option Binary64 :=
  if d.digits = 0 then some ⟨d.negative, 0, 0⟩
  else
    let size : Int := (Nat.log2 d.digits : Int) + 1
    if d.exponent > 400 then none
    else if d.exponent < -(400 + size) then some ⟨d.negative, 0, 0⟩
    else
      let num := d.digits * 10 ^ d.exponent.toNat
      let den := 10 ^ (-d.exponent).toNat
      let (m, q) := nearestFraction num den
      if q > 971 then none else some ⟨d.negative, m, q⟩

end Decimal

end AuthCore
