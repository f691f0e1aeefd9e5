import AuthCore.Json.Basic
import AuthCore.Decimal.Shortest
import AuthCore.Text.Hex

/-!
# Printing JSON

The compact text of a value: no blanks, members in their order, and only quotes, backslashes and
control characters escaped.
-/

namespace AuthCore.Json

/-- One character inside a quoted text. -/
def escape (c : Char) : List Char :=
  if c = '"' then ['\\', '"']
  else if c = '\\' then ['\\', '\\']
  else if c = '\n' then ['\\', 'n']
  else if c = '\r' then ['\\', 'r']
  else if c = '\t' then ['\\', 't']
  else if c = '\x08' then ['\\', 'b']
  else if c = '\x0c' then ['\\', 'f']
  else if c.toNat < 0x20 then
    ['\\', 'u', '0', '0', Text.hexDigit (c.toNat / 16), Text.hexDigit (c.toNat % 16)]
  else [c]

/-- A text between quotes. -/
def quote (s : String) : List Char := '"' :: (s.toList.flatMap escape ++ ['"'])

/-- The text of a number that is no integer: the shortest decimal that reads back as its nearest
double. -/
def realText (d : Decimal) : List Char :=
  match d.toBinary with
  | some b => b.shortest.text.toList
  | none => d.text.toList

mutual

/-- The compact text of a value, as characters. -/
def chars : Json → List Char
  | .null => ['n', 'u', 'l', 'l']
  | .bool true => ['t', 'r', 'u', 'e']
  | .bool false => ['f', 'a', 'l', 's', 'e']
  | .int i => Text.integerDigits i
  | .real d => realText d
  | .string s => quote s
  | .array items => '[' :: (itemChars items ++ [']'])
  | .object ms => '\x7b' :: (memberChars ms ++ ['\x7d'])

/-- The items of an array with commas between them. -/
def itemChars : List Json → List Char
  | [] => []
  | [j] => chars j
  | j :: js => chars j ++ ',' :: itemChars js

/-- The members of an object with commas between them. -/
def memberChars : List (String × Json) → List Char
  | [] => []
  | [(k, v)] => quote k ++ ':' :: chars v
  | (k, v) :: ms => quote k ++ ':' :: chars v ++ ',' :: memberChars ms

end

/-- The compact text of a value. -/
def text (j : Json) : String := String.ofList (chars j)

end AuthCore.Json
