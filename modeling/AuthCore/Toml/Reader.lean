import AuthCore.Toml.Tree

/-!
# Reading TOML

A document line by line: blank lines and comments, headers of tables, and assignments. The readers
of values take a fuel above the number of characters, and a depth that bounds how far arrays and
tables may be nested.
-/

namespace AuthCore.Toml

/-! ### Keys -/

/-- The characters of a name without quotes. -/
def isBare (c : Char) : Bool := c.isAlphanum || c = '_' || c = '-'

/-- A name. -/
def name? (cs : List Char) : Option (String × List Char) :=
  let bare := cs.takeWhile isBare
  if bare.isEmpty then quoted? cs else some (String.ofList bare, cs.dropWhile isBare)

/-- Names with points between them. -/
def names? : Nat → List Char → Option (List String × List Char)
  | 0, _ => none
  | fuel + 1, cs => do
    let (name, cs) ← name? (skip cs)
    match skip cs with
    | '.' :: cs =>
      let (names, cs) ← names? fuel cs
      return (name :: names, cs)
    | cs => return ([name], cs)

/-- A key and the blanks around it. -/
def key? (cs : List Char) : Option (Key × List Char) := do
  let (names, cs) ← names? (cs.length + 1) cs
  return (⟨names.dropLast, ← names.getLast?⟩, cs)

/-! ### Values -/

/-- What is behind a comment, if there is one. -/
def comment? : List Char → Option (List Char)
  | '#' :: cs =>
    let isEnd := fun c : Char => c = '\n' || c = '\r'
    if (cs.takeWhile fun c => !isEnd c).any isControl then none
    else some (cs.dropWhile fun c => !isEnd c)
  | cs => some cs

/-- Skips blanks, comments and line ends. -/
def skipAll : Nat → List Char → Option (List Char)
  | 0, cs => some cs
  | fuel + 1, cs => do
    let cs ← comment? (skip cs)
    match newline? cs with
    | some cs => skipAll fuel cs
    | none => return cs

/-- How far arrays and tables may be nested. -/
def maxDepth : Nat := 80

mutual

/-- A value. -/
def value? : Nat → Nat → List Char → Option (Value × List Char)
  | 0, _, _ => none
  | fuel + 1, depth, cs =>
    match cs with
    | '"' :: _ => (text? cs).map fun (s, cs) => (.text s, cs)
    | '\'' :: _ => (text? cs).map fun (s, cs) => (.text s, cs)
    | '[' :: cs =>
      if depth = 0 then none
      else (items? fuel (depth - 1) cs).map fun (vs, cs) => (.array vs, cs)
    | '\x7b' :: cs =>
      if depth = 0 then none
      else
        (members? fuel (depth - 1) (.defined, []) cs).map fun (es, cs) =>
          (.table (memberValues es), cs)
    | cs => plain? cs

/-- The items of an array up to its closing bracket. -/
def items? : Nat → Nat → List Char → Option (List Value × List Char)
  | 0, _, _ => none
  | fuel + 1, depth, cs =>
    match skipAll cs.length cs with
    | none => none
    | some (']' :: cs) => some ([], cs)
    | some cs =>
      match value? fuel depth cs with
      | none => none
      | some (v, cs) =>
        match skipAll cs.length cs with
        | some (']' :: cs) => some ([v], cs)
        | some (',' :: cs) => (items? fuel depth cs).map fun (vs, cs) => (v :: vs, cs)
        | _ => none

/-- The assignments in a table up to its closing brace. -/
def members? : Nat → Nat → Table → List Char → Option (Entries × List Char)
  | 0, _, _, _ => none
  | fuel + 1, depth, t, cs =>
    match skipAll cs.length cs with
    | none => none
    | some ('\x7d' :: cs) => some (t.2, cs)
    | some cs =>
      match key? cs with
      | some (k, '=' :: cs) =>
        match value? fuel depth (skip cs) with
        | none => none
        | some (v, cs) =>
          match assign k v t with
          | none => none
          | some t =>
            match skipAll cs.length cs with
            | some ('\x7d' :: cs) => some (t.2, cs)
            | some (',' :: cs) => members? fuel depth t cs
            | _ => none
      | _ => none

end

/-! ### Documents -/

/-- The document so far, and the names of the table that assignments go to. -/
structure Draft where
  /-- The document. -/
  root : Table
  /-- The table that assignments go to. -/
  current : List String

/-- What a line says. -/
inductive Line where
  | blank
  | header (k : Key)
  | itemHeader (k : Key)
  | assignment (k : Key) (v : Value)

/-- Reads what a line says, up to the blanks at its end. -/
def line : List Char → Option (Line × List Char)
  | '[' :: '[' :: cs => do
    match ← key? cs with
    | (k, ']' :: ']' :: cs) => return (.itemHeader k, cs)
    | _ => none
  | '[' :: cs => do
    match ← key? cs with
    | (k, ']' :: cs) => return (.header k, cs)
    | _ => none
  | [] => some (.blank, [])
  | c :: cs =>
    if c = '#' || c = '\n' || c = '\r' then some (.blank, c :: cs)
    else do
      match ← key? (c :: cs) with
      | (k, '=' :: cs) =>
        let (v, cs) ← value? (cs.length + 1) maxDepth (skip cs)
        return (.assignment k v, cs)
      | _ => none

/-- Takes a line into account. -/
def Draft.add (d : Draft) : Line → Option Draft
  | .blank => some d
  | .header k => (beginTable k d.root).map fun root => ⟨root, k.names⟩
  | .itemHeader k => (beginItem k d.root).map fun root => ⟨root, k.names⟩
  | .assignment k v =>
    (modify false (assign k v) d.current d.root).map fun root => ⟨root, d.current⟩

/-- Reads lines up to the end. -/
def Draft.read : Nat → Draft → List Char → Option Draft
  | 0, _, _ => none
  | fuel + 1, d, cs => do
    let (l, cs) ← line (skip cs)
    let d ← d.add l
    let cs ← comment? (skip cs)
    if cs.isEmpty then return d
    else Draft.read fuel d (← newline? cs)

/-- The members of the document that a text writes; a mark of the byte order may stand in front. -/
def ofText? (s : String) : Option Value := do
  let cs := match s.toList with
    | '\uFEFF' :: cs => cs
    | cs => cs
  let d ← Draft.read (cs.length + 1) ⟨(.defined, []), []⟩ cs
  return .table (memberValues d.root.2)

end AuthCore.Toml
