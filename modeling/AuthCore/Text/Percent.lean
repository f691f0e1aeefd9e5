import AuthCore.Text.Base64
import AuthCore.Text.Hex

/-!
# Percent escapes

A percent sign and two hexadecimal digits stand for a byte; any other percent sign stands for
itself. In the query of an address a plus sign is a blank, too.
-/

namespace AuthCore.Text

/-- The bytes that a text with percent escapes stands for. -/
def percentBytes : List Char → List UInt8
  | '%' :: a :: b :: cs =>
    match hexValue? a, hexValue? b with
    | some x, some y => UInt8.ofNat (x * 16 + y) :: percentBytes cs
    | _, _ => utf8 "%" ++ percentBytes (a :: b :: cs)
  | c :: cs => utf8 (String.singleton c) ++ percentBytes cs
  | [] => []

/-- The text that a text with percent escapes stands for, if its bytes are one. -/
def percentDecode? (s : String) : Option String := ofUtf8? (percentBytes s.toList)

/-- What a name or a value in a query stands for; bytes that are no text become a replacement
character. -/
def queryDecode (cs : List Char) : String :=
  (ofUtf8? (percentBytes (cs.map fun c => if c = '+' then ' ' else c))).getD "\uFFFD"

/-- The names and values of a query. -/
def queryPairs (s : String) : List (String × String) :=
  ((s.toList.splitOn '&').filter (!·.isEmpty)).map fun part =>
    (queryDecode (part.takeWhile (· != '=')), queryDecode ((part.dropWhile (· != '=')).drop 1))

end AuthCore.Text
