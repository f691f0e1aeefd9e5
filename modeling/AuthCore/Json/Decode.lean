import AuthCore.Json.Basic

/-!
# Decoding JSON into typed values

A structure is written as an object, or as an array of all its fields in their declared order. In an
object every known field stands at most once and unknown members are ignored. A variant without
content is written as its name, or as an object with its name and `null`.
-/

namespace AuthCore.Json

/-- The fields found in a document, by name. -/
abbrev Fields := List (String × Json)

/-- The known fields of a document; a repeated known member is refused. -/
def fields? (names : List String) : Json → Option Fields
  | .object ms =>
    let known := ms.filter fun m => names.contains m.1
    if (known.map (·.1)).Nodup then some known else none
  | .array items => if items.length = names.length then some (names.zip items) else none
  | _ => none

/-- The known fields of a structure whose fields all have defaults, so that an array may stop
early. -/
def fieldsWithDefaults? (names : List String) : Json → Option Fields
  | .object ms => fields? names (.object ms)
  | .array items => if items.length ≤ names.length then some (names.zip items) else none
  | _ => none

/-- A field that has to be there. -/
def Fields.need (fs : Fields) (name : String) (f : Json → Option α) : Option α :=
  (fs.lookup name).bind f

/-- A field that may be missing or `null`. -/
def Fields.maybe (fs : Fields) (name : String) (f : Json → Option α) : Option (Option α) :=
  match fs.lookup name with
  | none => some none
  | some .null => some none
  | some j => (f j).map some

/-- A field that has a value of its own when it is missing. -/
def Fields.getD (fs : Fields) (name : String) (f : Json → Option α) (default : α) : Option α :=
  match fs.lookup name with
  | none => some default
  | some j => f j

/-- A text. -/
def string? : Json → Option String
  | .string s => some s
  | _ => none

/-- A truth value. -/
def bool? : Json → Option Bool
  | .bool b => some b
  | _ => none

/-- An integer, signed, of `bits` bits. -/
def signed? (bits : Nat) : Json → Option Int
  | .int i => if -(2 ^ (bits - 1) : Int) ≤ i ∧ i < (2 ^ (bits - 1) : Int) then some i else none
  | _ => none

/-- An integer that is not negative, of `bits` bits. -/
def unsigned? (bits : Nat) : Json → Option Nat
  | .int i => if 0 ≤ i ∧ i < (2 ^ bits : Int) then some i.toNat else none
  | _ => none

/-- An array whose items all fit. -/
def list? (f : Json → Option α) : Json → Option (List α)
  | .array items => items.mapM f
  | _ => none

/-- A variant without content. -/
def variant? (ofName? : String → Option α) : Json → Option α
  | .string s => ofName? s
  | .object [(s, .null)] => ofName? s
  | _ => none

/-- The nesting depth: arrays and objects count one each. -/
def depth : Json → Nat
  | .array items => depthItems items + 1
  | .object ms => depthMembers ms + 1
  | _ => 0
where
  /-- The greatest depth among items. -/
  depthItems : List Json → Nat
    | [] => 0
    | j :: js => max (depth j) (depthItems js)
  /-- The greatest depth among members. -/
  depthMembers : List (String × Json) → Nat
    | [] => 0
    | (_, j) :: ms => max (depth j) (depthMembers ms)

/-- Puts a member into members sorted by name; one of the same name is replaced. -/
def putMember (name : String) (value : Json) : List (String × Json) → List (String × Json)
  | [] => [(name, value)]
  | (k, v) :: ms =>
    if name < k then (name, value) :: (k, v) :: ms
    else if name = k then (name, value) :: ms
    else (k, v) :: putMember name value ms

mutual

/-- The value as data: numbers become their nearest doubles, and the members of an object are sorted
by name with the last of each name kept. A number beyond the doubles is refused. -/
def normal? : Json → Option Json
  | .real d => if d.toBinary.isSome then some (.real d) else none
  | .array items => (normalItems? items).map .array
  | .object ms => (normalMembers? [] ms).map .object
  | j => some j

/-- Every item as data. -/
def normalItems? : List Json → Option (List Json)
  | [] => some []
  | j :: js => (normal? j).bind fun j => (normalItems? js).map (j :: ·)

/-- The members as data, put one after the other into those already there. -/
def normalMembers? (done : List (String × Json)) :
    List (String × Json) → Option (List (String × Json))
  | [] => some done
  | (k, v) :: ms => (normal? v).bind fun v => normalMembers? (putMember k v done) ms

end

/-- Any value as data, nested at most 127 deep. -/
def any? (j : Json) : Option Json := if j.depth ≤ 127 then normal? j else none

mutual

/-- A value with the members of another laid over it: objects are joined member by member, anything
else is replaced. -/
def overlay (base : Json) : Json → Json
  | .object top =>
    match base with
    | .object ms => .object (overlayMembers ms top)
    | _ => .object top
  | top => top

/-- Lays members one after the other over those of an object. -/
def overlayMembers (ms : List (String × Json)) : List (String × Json) → List (String × Json)
  | [] => ms
  | (k, v) :: top =>
    let old := (ms.lookup k).getD .null
    let new := overlay old v
    let ms := if ms.any (·.1 == k) then ms.map fun m => if m.1 == k then (k, new) else m
      else ms ++ [(k, new)]
    overlayMembers ms top

end

end AuthCore.Json
