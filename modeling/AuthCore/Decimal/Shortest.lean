import AuthCore.Decimal.Binary
import AuthCore.Text.Integer

/-!
# The shortest decimal that reads back

Every finite double is the nearest one to an interval of real numbers. `Binary64.shortest` picks the
decimal number with the fewest digits in that interval, and among those the one nearest to the
double.
-/

namespace AuthCore

namespace Binary64

/-- The double, and half the gap to its neighbours above and below, as numerators over one common
denominator. -/
structure Rounding where
  /-- The double itself. -/
  value : Nat
  /-- Half the gap to the next double above. -/
  above : Nat
  /-- Half the gap to the next double below. -/
  below : Nat
  /-- The common denominator. -/
  scale : Nat

/-- The interval of a positive double. Below a power of two the gap is half as wide. -/
def rounding (b : Binary64) : Rounding :=
  let up := 2 ^ b.exponent.toNat
  let narrow := b.mantissa = 2 ^ 52 && b.exponent > -1074
  { value := 4 * b.mantissa * up
    above := 2 * up
    below := if narrow then up else 2 * up
    scale := 4 * 2 ^ (-b.exponent).toNat }

/-- The two multiples of `10 ^ e` next to the double that lie in its interval. -/
def neighbours (r : Rounding) (even : Bool) (e : Int) : List Nat :=
  let up := 10 ^ e.toNat
  let down := 10 ^ (-e).toNat
  let f := r.value * down / (r.scale * up)
  [f, f + 1].filter fun n =>
    let x := n * r.scale * up
    let v := r.value * down
    let gap := if x < v then (v - x, r.below * down) else (x - v, r.above * down)
    gap.1 < gap.2 || (even && gap.1 == gap.2)

/-- The nearer of the multiples found, a tie going to the even one. -/
def nearer (r : Rounding) (e : Int) : List Nat → Option Nat
  | [] => none
  | [n] => some n
  | n :: m :: _ =>
    let up := 10 ^ e.toNat
    let v := r.value * 10 ^ (-e).toNat
    let low := v - n * r.scale * up
    let high := m * r.scale * up - v
    if low < high || (low == high && n % 2 == 0) then some n else some m

/-- The first grid, from coarse to fine, that has a point in the interval. -/
def search (r : Rounding) (even : Bool) : Nat → Int → Option (Nat × Int)
  | 0, _ => none
  | steps + 1, e =>
    match nearer r e ((neighbours r even e).filter (0 < ·)) with
    | some n => some (n, e)
    | none => search r even steps (e - 1)

/-- Removes the zeros at the end of the digits. -/
def dropZeros : Nat → Nat → Int → Nat × Int
  | 0, n, e => (n, e)
  | fuel + 1, n, e => if n % 10 = 0 ∧ n ≠ 0 then dropZeros fuel (n / 10) (e + 1) else (n, e)

/-- The shortest decimal number whose nearest double this is. -/
def shortest (b : Binary64) : Decimal :=
  if b.mantissa = 0 then ⟨b.negative, 0, 0⟩
  else
    let r := b.rounding
    let top : Int := ((Nat.log2 b.mantissa : Int) + b.exponent) * 30103 / 100000 + 2
    match search r (b.mantissa % 2 == 0) 22 top with
    | some (n, e) =>
      let (n, e) := dropZeros 20 n e
      ⟨b.negative, n, e⟩
    | none => ⟨b.negative, b.mantissa, 0⟩

end Binary64

/-- The text of a decimal number: positional while the point stands within sixteen digits or at most
five zeros behind it, otherwise with an exponent. A number without a fraction ends in `.0`. -/
def Decimal.text (d : Decimal) : String :=
  let ds := Text.naturalDigits d.digits
  let point : Int := ds.length + d.exponent
  let body : List Char :=
    if d.digits = 0 then ['0', '.', '0']
    else if 0 ≤ d.exponent ∧ point ≤ 16 then
      ds ++ List.replicate d.exponent.toNat '0' ++ ['.', '0']
    else if 0 < point ∧ point ≤ 16 then ds.take point.toNat ++ '.' :: ds.drop point.toNat
    else if -5 < point ∧ point ≤ 0 then
      '0' :: '.' :: (List.replicate (-point).toNat '0' ++ ds)
    else
      let mark := 'e' :: Text.integerDigits (point - 1)
      match ds with
      | [c] => c :: mark
      | c :: cs => c :: '.' :: (cs ++ mark)
      | [] => []
  String.ofList (if d.negative then '-' :: body else body)

end AuthCore
