import AuthCore.Json.Basic
import AuthCore.Text.Hex
import AuthCore.Text.Integer

/-!
# Reading JSON

A recursive-descent reader of the JSON grammar. It takes a fuel that bounds the depth of the
descent; `Json.ofText?` starts it with more fuel than the text has characters.
-/

namespace AuthCore.Json

/-- The four blanks of the JSON grammar. -/
def isSpace (c : Char) : Bool := c = ' ' || c = '\n' || c = '\r' || c = '\t'

/-- Skips blanks. -/
def skip (cs : List Char) : List Char := cs.dropWhile isSpace

/-- Four hexadecimal digits. -/
def hex4? : List Char → Option (Nat × List Char)
  | a :: b :: c :: d :: cs => do
    let a ← Text.hexValue? a
    let b ← Text.hexValue? b
    let c ← Text.hexValue? c
    let d ← Text.hexValue? d
    some (((a * 16 + b) * 16 + c) * 16 + d, cs)
  | _ => none

/-- The character of an escape with four digits, after the `u`. A high surrogate needs a low one
behind it, and a low one never stands alone. -/
def unicode? (cs : List Char) : Option (Char × List Char) := do
  let (n, cs) ← hex4? cs
  if 0xD800 ≤ n && n < 0xDC00 then
    match cs with
    | '\\' :: 'u' :: cs =>
      let (m, cs) ← hex4? cs
      if 0xDC00 ≤ m && m < 0xE000 then
        some (Char.ofNat (0x10000 + (n - 0xD800) * 0x400 + (m - 0xDC00)), cs)
      else none
    | _ => none
  else if 0xDC00 ≤ n && n < 0xE000 then none
  else some (Char.ofNat n, cs)

/-- The character of an escape, after the backslash. -/
def escaped? : List Char → Option (Char × List Char)
  | '"' :: cs => some ('"', cs)
  | '\\' :: cs => some ('\\', cs)
  | '/' :: cs => some ('/', cs)
  | 'b' :: cs => some ('\x08', cs)
  | 'f' :: cs => some ('\x0c', cs)
  | 'n' :: cs => some ('\n', cs)
  | 'r' :: cs => some ('\r', cs)
  | 't' :: cs => some ('\t', cs)
  | 'u' :: cs => unicode? cs
  | _ => none

/-- The characters up to the closing quote. -/
def quoted? : Nat → List Char → Option (List Char × List Char)
  | 0, _ => none
  | _ + 1, [] => none
  | fuel + 1, c :: cs =>
    if c = '"' then some ([], cs)
    else if c = '\\' then do
      let (x, cs) ← escaped? cs
      let (xs, cs) ← quoted? fuel cs
      some (x :: xs, cs)
    else if c.toNat < 0x20 then none
    else do
      let (xs, cs) ← quoted? fuel cs
      some (c :: xs, cs)

/-- The digits in front, and what follows them. -/
def spanDigits (cs : List Char) : List Char × List Char :=
  (cs.takeWhile (fun c => (Text.digit? c).isSome), cs.dropWhile (fun c => (Text.digit? c).isSome))

/-- The value of a list of digits. -/
def digitsValue (ds : List Char) : Nat := (Text.foldDigits 0 ds).getD 0

/-- The digits of a fraction, if a point stands in front. -/
def fraction? : List Char → Option (List Char × List Char)
  | '.' :: cs =>
    let (ds, cs) := spanDigits cs
    if ds.isEmpty then none else some (ds, cs)
  | cs => some ([], cs)

/-- The exponent, if its mark stands in front. -/
def exponent? : List Char → Option (Option Int × List Char)
  | [] => some (none, [])
  | c :: cs =>
    if c = 'e' || c = 'E' then
      let (negative, cs) := match cs with
        | '-' :: cs => (true, cs)
        | '+' :: cs => (false, cs)
        | cs => (false, cs)
      let (ds, cs) := spanDigits cs
      if ds.isEmpty then none
      else
        let n : Int := digitsValue ds
        some (some (if negative then -n else n), cs)
    else some (none, c :: cs)

/-- An integer of 64 bits is one; a minus sign in front of a zero, a larger number, a fraction or an
exponent makes a number of the other kind. -/
def numberOf (negative : Bool) (whole frac : List Char) (exp : Option Int) : Json :=
  let n := digitsValue (whole ++ frac)
  let isInt := frac.isEmpty && exp.isNone
    && (if negative then 0 < n && n ≤ 2 ^ 63 else n < 2 ^ 64)
  if isInt then .int (if negative then -(n : Int) else n)
  else .real ⟨negative, n, exp.getD 0 - frac.length⟩

/-- A number. No zero stands in front of another digit. -/
def number? (cs : List Char) : Option (Json × List Char) :=
  let (negative, cs) := match cs with
    | '-' :: cs => (true, cs)
    | cs => (false, cs)
  let (whole, cs) := spanDigits cs
  if whole.isEmpty || (whole.head? = some '0' && 1 < whole.length) then none
  else do
    let (frac, cs) ← fraction? cs
    let (exp, cs) ← exponent? cs
    some (numberOf negative whole frac exp, cs)

mutual

/-- A value after blanks. -/
def value? : Nat → List Char → Option (Json × List Char)
  | 0, _ => none
  | fuel + 1, cs =>
    match skip cs with
    | [] => none
    | 'n' :: 'u' :: 'l' :: 'l' :: cs => some (.null, cs)
    | 't' :: 'r' :: 'u' :: 'e' :: cs => some (.bool true, cs)
    | 'f' :: 'a' :: 'l' :: 's' :: 'e' :: cs => some (.bool false, cs)
    | '"' :: cs => (quoted? (cs.length + 1) cs).map fun (s, cs) => (.string (String.ofList s), cs)
    | '[' :: cs =>
      match skip cs with
      | ']' :: cs => some (.array [], cs)
      | cs => (items? fuel cs).map fun (js, cs) => (.array js, cs)
    | '\x7b' :: cs =>
      match skip cs with
      | '\x7d' :: cs => some (.object [], cs)
      | cs => (members? fuel cs).map fun (ms, cs) => (.object ms, cs)
    | cs => number? cs

/-- The items of an array up to its closing bracket; at least one. -/
def items? : Nat → List Char → Option (List Json × List Char)
  | 0, _ => none
  | fuel + 1, cs =>
    match value? fuel cs with
    | none => none
    | some (j, cs) =>
      match skip cs with
      | ']' :: cs => some ([j], cs)
      | ',' :: cs => (items? fuel cs).map fun (js, cs) => (j :: js, cs)
      | _ => none

/-- The members of an object up to its closing brace; at least one. -/
def members? : Nat → List Char → Option (List (String × Json) × List Char)
  | 0, _ => none
  | fuel + 1, cs =>
    match skip cs with
    | '"' :: cs =>
      match quoted? (cs.length + 1) cs with
      | none => none
      | some (k, cs) =>
        match skip cs with
        | ':' :: cs =>
          match value? fuel cs with
          | none => none
          | some (v, cs) =>
            match skip cs with
            | '\x7d' :: cs => some ([(String.ofList k, v)], cs)
            | ',' :: cs => (members? fuel cs).map fun (ms, cs) => ((String.ofList k, v) :: ms, cs)
            | _ => none
        | _ => none
    | _ => none

end

/-- The value that a list of characters writes; blanks may stand on both sides. -/
def ofChars? (cs : List Char) : Option Json :=
  match value? (cs.length + 1) cs with
  | some (j, rest) => if (skip rest).isEmpty then some j else none
  | none => none

/-- The value that a text writes. -/
def ofText? (s : String) : Option Json := ofChars? s.toList

end AuthCore.Json
