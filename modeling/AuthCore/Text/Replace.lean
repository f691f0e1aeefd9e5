/-!
# Replacing a text inside another

Every occurrence of a pattern is replaced, from left to right; occurrences do not overlap, and what
was put in is not searched again.
-/

namespace AuthCore.Text

/-- Replaces a pattern in the characters behind the first `skip`, which are dropped. -/
def replaceFrom (pattern new : List Char) (skip : Nat) : List Char → List Char
  | [] => []
  | c :: cs =>
    match skip with
    | k + 1 => replaceFrom pattern new k cs
    | 0 =>
      if pattern.isPrefixOf (c :: cs) then new ++ replaceFrom pattern new (pattern.length - 1) cs
      else c :: replaceFrom pattern new 0 cs

/-- A text with every occurrence of a pattern replaced. -/
def replace (s pattern new : String) : String :=
  String.ofList (replaceFrom pattern.toList new.toList 0 s.toList)

end AuthCore.Text
