import AuthCore.Decimal.Binary

/-!
# JSON values

A document as it was written: members keep their order and may repeat, and a number that is not an
integer of 64 bits keeps its exact decimal value.
-/

namespace AuthCore

/-- A JSON value. -/
inductive Json where
  | null
  | bool (b : Bool)
  /-- An integer that fits in 64 bits, signed or unsigned. -/
  | int (i : Int)
  /-- Any other number. -/
  | real (d : Decimal)
  | string (s : String)
  | array (items : List Json)
  | object (members : List (String × Json))
  deriving Repr, Inhabited

namespace Json

/-- A natural number as a JSON value. -/
def nat (n : Nat) : Json := .int n

/-- A value or `null`. -/
def orNull (f : α → Json) : Option α → Json
  | some a => f a
  | none => .null

/-- A text or `null`. -/
def stringOrNull : Option String → Json := orNull .string

/-- A list of texts. -/
def strings (xs : List String) : Json := .array (xs.map .string)

/-- The members of an object; other values have none. -/
def members : Json → List (String × Json)
  | .object ms => ms
  | _ => []

/-- The first member with a name. -/
def get? (j : Json) (name : String) : Option Json := j.members.lookup name

end Json

end AuthCore
