import AuthCore.Json.Reader

/-!
# TOML strings, numbers and times

The scalar values of TOML. Every reader takes the characters in front of it and answers with the
value and the characters behind it, or with nothing.
-/

namespace AuthCore.Toml

/-- A value. -/
inductive Value where
  | text (s : String)
  | integer (i : Int)
  | decimal (d : Decimal)
  /-- An infinity, or no number at all. -/
  | limit
  | truth (b : Bool)
  /-- A date, a time, or both. -/
  | time
  | array (items : List Value)
  | table (members : List (String × Value))
  deriving Repr, Inhabited

namespace Value

mutual

/-- The document that has the same content. A time has no member that anyone knows, and an infinity
is a number that is too great for everyone. -/
def toJson : Value → Json
  | text s => .string s
  | integer i => .int i
  | decimal d => .real d
  | limit => .real ⟨false, 1, 400⟩
  | truth b => .bool b
  | time => .object []
  | array items => .array (itemsJson items)
  | table members => .object (membersJson members)

/-- The documents of the items of an array. -/
def itemsJson : List Value → List Json
  | [] => []
  | v :: vs => v.toJson :: itemsJson vs

/-- The documents of the members of a table. -/
def membersJson : List (String × Value) → List (String × Json)
  | [] => []
  | (k, v) :: ms => (k, v.toJson) :: membersJson ms

end

end Value

/-! ### Strings -/

/-- A control character that may not stand in a text or a comment. -/
def isControl (c : Char) : Bool := (c.toNat < 0x20 && c != '\t') || c.toNat = 0x7F

/-- The character with a number in hexadecimal digits. -/
def codePoint? (width : Nat) (cs : List Char) : Option (Char × List Char) := do
  let digits := cs.take width
  guard (digits.length = width)
  let n ← digits.foldlM (fun n c => (Text.hexValue? c).map fun d => n * 16 + d) 0
  guard (n < 0x110000 && !(0xD800 ≤ n && n < 0xE000))
  return (Char.ofNat n, cs.drop width)

/-- The character of an escape, after the backslash. -/
def escaped? : List Char → Option (Char × List Char)
  | 'b' :: cs => some ('\x08', cs)
  | 't' :: cs => some ('\t', cs)
  | 'n' :: cs => some ('\n', cs)
  | 'f' :: cs => some ('\x0c', cs)
  | 'r' :: cs => some ('\r', cs)
  | 'e' :: cs => some ('\x1b', cs)
  | '"' :: cs => some ('"', cs)
  | '\\' :: cs => some ('\\', cs)
  | 'x' :: cs => codePoint? 2 cs
  | 'u' :: cs => codePoint? 4 cs
  | 'U' :: cs => codePoint? 8 cs
  | _ => none

/-- The text up to a quote on the same line; between double quotes there are escapes. -/
def line? (quote : Char) : Nat → List Char → Option (List Char × List Char)
  | 0, _ => none
  | _ + 1, [] => none
  | fuel + 1, c :: cs =>
    if c = quote then some ([], cs)
    else if isControl c then none
    else if c = '\\' && quote = '"' then do
      let (x, cs) ← escaped? cs
      let (xs, cs) ← line? quote fuel cs
      return (x :: xs, cs)
    else (line? quote fuel cs).map fun (xs, cs) => (c :: xs, cs)

/-- The line end in front. -/
def newline? : List Char → Option (List Char)
  | '\n' :: cs => some cs
  | '\r' :: '\n' :: cs => some cs
  | _ => none

/-- Whether a character is a blank inside a line. -/
def isBlank (c : Char) : Bool := c = ' ' || c = '\t'

/-- Skips blanks inside a line. -/
def skip (cs : List Char) : List Char := cs.dropWhile isBlank

/-- Skips blanks and line ends. -/
def skipLines : Nat → List Char → List Char
  | 0, cs => cs
  | fuel + 1, cs =>
    match newline? (skip cs) with
    | some cs => skipLines fuel cs
    | none => skip cs

/-- What is behind a backslash at the end of a line: the next character that is not blank. -/
def joined? (cs : List Char) : Option (List Char) :=
  (newline? (skip cs)).map fun rest => skipLines rest.length rest

/-- The text up to three quotes; up to two more quotes in front of them belong to the text. -/
def lines? (quote : Char) : Nat → List Char → Option (List Char × List Char)
  | 0, _ => none
  | _ + 1, [] => none
  | fuel + 1, c :: cs =>
    if c = quote then
      let run := (c :: cs).takeWhile (· == quote)
      let rest := (c :: cs).dropWhile (· == quote)
      if run.length < 3 then
        (lines? quote fuel rest).map fun (xs, cs) => (run ++ xs, cs)
      else if run.length ≤ 5 then some (run.drop 3, rest)
      else none
    else if c = '\\' && quote = '"' then
      match joined? cs with
      | some cs => lines? quote fuel cs
      | none => do
        let (x, cs) ← escaped? cs
        let (xs, cs) ← lines? quote fuel cs
        return (x :: xs, cs)
    else
      match newline? (c :: cs) with
      | some rest =>
        let ending := (c :: cs).take (cs.length + 1 - rest.length)
        (lines? quote fuel rest).map fun (xs, cs) => (ending ++ xs, cs)
      | none =>
        if isControl c then none
        else (lines? quote fuel cs).map fun (xs, cs) => (c :: xs, cs)

/-- A text of one line. -/
def quoted? : List Char → Option (String × List Char)
  | '"' :: cs => (line? '"' (cs.length + 1) cs).map fun (s, cs) => (String.ofList s, cs)
  | '\'' :: cs => (line? '\'' (cs.length + 1) cs).map fun (s, cs) => (String.ofList s, cs)
  | _ => none

/-- A text of several lines; a line end right behind the quotes does not count. -/
def block? (quote : Char) (cs : List Char) : Option (String × List Char) :=
  let cs := (newline? cs).getD cs
  (lines? quote (cs.length + 1) cs).map fun (s, cs) => (String.ofList s, cs)

/-- A text. -/
def text? : List Char → Option (String × List Char)
  | '"' :: '"' :: '"' :: cs => block? '"' cs
  | '\'' :: '\'' :: '\'' :: cs => block? '\'' cs
  | cs => quoted? cs

/-! ### Numbers -/

/-- Digits with single underscores between them. -/
def digits? (isDigit : Char → Bool) (cs : List Char) : Option (List Char) :=
  let parts := cs.splitOn '_'
  if parts.all fun p => !p.isEmpty && p.all isDigit then some parts.flatten else none

/-- A number of digits of a base. -/
def based? (base : Nat) (cs : List Char) : Option Value := do
  let ds ← digits? (fun c => ((Text.hexValue? c).map fun d => decide (d < base)).getD false) cs
  let n := ds.foldl (fun n c => n * base + (Text.hexValue? c).getD 0) 0
  if n < 2 ^ 128 then return .integer n else none

/-- The sign in front, and what is behind it. -/
def splitSign : List Char → Bool × List Char
  | '-' :: cs => (true, cs)
  | '+' :: cs => (false, cs)
  | cs => (false, cs)

/-- Decimal digits without a zero in front. -/
def whole? (cs : List Char) : Option (List Char) := do
  let ds ← digits? Char.isDigit cs
  if 1 < ds.length && ds.head? == some '0' then none else some ds

/-- What stands in front of the exponent, and the exponent. -/
def splitExponent (cs : List Char) : List Char × Option (List Char) :=
  let isMark := fun c : Char => c = 'e' || c = 'E'
  let front := cs.takeWhile fun c => !isMark c
  match cs.dropWhile fun c => !isMark c with
  | [] => (front, none)
  | _ :: exp => (front, some exp)

/-- A number with a fraction or an exponent; the largest of them are too large. -/
def decimal? (negative : Bool) (cs : List Char) : Option Value := do
  let (front, exp) := splitExponent cs
  let whole ← whole? (front.takeWhile (· != '.'))
  let frac ← match front.dropWhile (· != '.') with
    | [] => some []
    | _ :: frac => digits? Char.isDigit frac
  let exp : Int ← match exp with
    | none => some 0
    | some exp =>
      let (below, exp) := splitSign exp
      (digits? Char.isDigit exp).map fun ds =>
        let n : Int := Json.digitsValue ds
        if below then -n else n
  let d : Decimal := ⟨negative, Json.digitsValue (whole ++ frac), exp - frac.length⟩
  if d.toBinary.isSome then return .decimal d else none

/-- A number. -/
def number? (cs : List Char) : Option Value :=
  match cs with
  | '0' :: 'x' :: ds => based? 16 ds
  | '0' :: 'o' :: ds => based? 8 ds
  | '0' :: 'b' :: ds => based? 2 ds
  | _ =>
    let (negative, rest) := splitSign cs
    if rest = "inf".toList || rest = "nan".toList then some .limit
    else if rest.any fun c => c = '.' || c = 'e' || c = 'E' then decimal? negative rest
    else do
      let n := Json.digitsValue (← whole? rest)
      if negative then
        if n ≤ 2 ^ 127 then return .integer (-(n : Int)) else none
      else if n < 2 ^ 128 then return .integer n
      else none

/-! ### Times -/

/-- The number that a list of a given number of digits writes. -/
def fixed? (width : Nat) (cs : List Char) : Option (Nat × List Char) := do
  let ds := cs.take width
  guard (ds.length = width)
  return (← Text.natural? ds, cs.drop width)

/-- Takes a character away. -/
def expect? (c : Char) : List Char → Option (List Char)
  | d :: cs => if c = d then some cs else none
  | [] => none

/-- The number of days in a month. -/
def daysIn (year month : Nat) : Nat :=
  if month = 2 then
    if year % 4 = 0 && (year % 100 ≠ 0 || year % 400 = 0) then 29 else 28
  else if [4, 6, 9, 11].contains month then 30 else 31

/-- A date. -/
def date? (cs : List Char) : Option (List Char) := do
  let (year, cs) ← fixed? 4 cs
  let (month, cs) ← fixed? 2 (← expect? '-' cs)
  let (day, cs) ← fixed? 2 (← expect? '-' cs)
  guard (1 ≤ month && month ≤ 12 && 1 ≤ day && day ≤ daysIn year month)
  return cs

/-- The seconds of a time of day and what follows the point; the last minute may have a leap second,
and both may be missing. -/
def clockSeconds? : List Char → Option (List Char)
  | ':' :: cs => do
    let (second, cs) ← fixed? 2 cs
    guard (second ≤ 60)
    match cs with
    | '.' :: frac =>
      guard ((frac.head?.map Char.isDigit).getD false)
      return frac.dropWhile Char.isDigit
    | cs => return cs
  | cs => some cs

/-- A time of day. -/
def clock? (cs : List Char) : Option (List Char) := do
  let (hour, cs) ← fixed? 2 cs
  let (minute, cs) ← fixed? 2 (← expect? ':' cs)
  guard (hour < 24 && minute < 60)
  clockSeconds? cs

/-- The distance from universal time, if there is one. -/
def offset? : List Char → Option (List Char)
  | 'Z' :: cs => some cs
  | 'z' :: cs => some cs
  | c :: cs =>
    if c = '+' || c = '-' then do
      let (hour, cs) ← fixed? 2 cs
      let (minute, cs) ← fixed? 2 (← expect? ':' cs)
      guard (hour < 24 && minute < 60)
      return cs
    else some (c :: cs)
  | [] => some []

/-- Whether a text is a date, a time, or both. -/
def isTime (cs : List Char) : Bool :=
  match date? cs with
  | some [] => true
  | some (c :: rest) =>
    (c = 'T' || c = 't' || c = ' ') && ((clock? rest).bind offset?) == some []
  | none => clock? cs == some []

/-- The characters of a scalar without quotes. -/
def isScalarChar (c : Char) : Bool :=
  c.isAlphanum || c = '_' || c = '+' || c = '-' || c = '.' || c = ':'

/-- The characters of a scalar without quotes, and what is behind them; a blank may stand between a
date and a time. -/
def splitScalar (cs : List Char) : List Char × List Char :=
  let front := cs.takeWhile isScalarChar
  let rest := cs.dropWhile isScalarChar
  match rest with
  | ' ' :: c :: more =>
    if date? front == some [] && c.isDigit then
      (front ++ ' ' :: (c :: more).takeWhile isScalarChar, (c :: more).dropWhile isScalarChar)
    else (front, rest)
  | _ => (front, rest)

/-- A scalar without quotes. -/
def plain? (cs : List Char) : Option (Value × List Char) := do
  let (front, rest) := splitScalar cs
  if front = "true".toList then return (.truth true, rest)
  else if front = "false".toList then return (.truth false, rest)
  else if isTime front then return (.time, rest)
  else return (← number? front, rest)

end AuthCore.Toml
