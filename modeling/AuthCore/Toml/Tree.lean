import AuthCore.Toml.Scalar

/-!
# Tables under construction

A TOML document is a sequence of headers and assignments. A table may come to be in three ways, and
what may still be added to it depends on the way; no name is ever assigned twice.
-/

namespace AuthCore.Toml

/-- How a table came to be. -/
inductive Origin where
  /-- By its own header, or as the document. -/
  | defined
  /-- By the header of a table in it. -/
  | implied
  /-- By an assignment to a name in it. -/
  | dotted
  deriving DecidableEq, Repr

/-- What a name stands for. -/
inductive Node where
  /-- A value, to which nothing is added. -/
  | leaf (v : Value)
  | table (origin : Origin) (entries : List (String × Node))
  /-- The tables of an array, each under a header of its own. -/
  | tables (items : List (List (String × Node)))
  deriving Inhabited

/-- The names in a table. -/
abbrev Entries := List (String × Node)

/-- A table and how it came to be. -/
abbrev Table := Origin × Entries

/-- The entries with one of them replaced. -/
def replaceEntry (name : String) (n : Node) (es : Entries) : Entries :=
  es.map fun e => if e.1 == name then (name, n) else e

/-- Changes the table at the end of a path of names, creating those on the way. An assignment does
not lead into a table that has a header. -/
def modify (assigning : Bool) (f : Table → Option Table) : List String → Table → Option Table
  | [], t => f t
  | name :: names, (origin, es) =>
    match es.lookup name with
    | none => do
      let (o, inner) ← modify assigning f names (if assigning then .dotted else .implied, [])
      return (origin, es ++ [(name, .table o inner)])
    | some (.table o inner) => do
      guard !(assigning && o == .defined)
      let (o, inner) ← modify assigning f names (o, inner)
      return (origin, replaceEntry name (.table o inner) es)
    | some (.tables items) => do
      let (_, inner) ← modify assigning f names (.defined, ← items.getLast?)
      return (origin, replaceEntry name (.tables (items.dropLast ++ [inner])) es)
    | some (.leaf _) => none

/-- A path of names: those on the way, and the last one. -/
structure Key where
  /-- The names on the way. -/
  path : List String
  /-- The last name. -/
  name : String

/-- All names. -/
def Key.names (k : Key) : List String := k.path ++ [k.name]

/-- Assigns a value; the table it goes to was made by assignments if and only if there are names on
the way. -/
def assign (k : Key) (v : Value) : Table → Option Table :=
  modify true (fun (origin, es) => do
    guard ((origin == .dotted) != k.path.isEmpty && (es.lookup k.name).isNone)
    return (origin, es ++ [(k.name, .leaf v)])) k.path

/-- Begins a table; one that was only implied becomes defined. -/
def beginTable (k : Key) : Table → Option Table :=
  modify false (fun (origin, es) =>
    match es.lookup k.name with
    | none => some (origin, es ++ [(k.name, .table .defined [])])
    | some (.table .implied inner) =>
      some (origin, replaceEntry k.name (.table .defined inner) es)
    | some _ => none) k.path

/-- Begins the next table of an array. -/
def beginItem (k : Key) : Table → Option Table :=
  modify false (fun (origin, es) =>
    match es.lookup k.name with
    | none => some (origin, es ++ [(k.name, .tables [[]])])
    | some (.tables items) => some (origin, replaceEntry k.name (.tables (items ++ [[]])) es)
    | some _ => none) k.path

mutual

/-- The value of a node. -/
def Node.value : Node → Value
  | .leaf v => v
  | .table _ es => .table (memberValues es)
  | .tables items => .array (itemValues items)

/-- The values of the names in a table. -/
def memberValues : List (String × Node) → List (String × Value)
  | [] => []
  | (k, n) :: es => (k, n.value) :: memberValues es

/-- The values of the tables of an array. -/
def itemValues : List (List (String × Node)) → List Value
  | [] => []
  | es :: items => .table (memberValues es) :: itemValues items

end

end AuthCore.Toml
