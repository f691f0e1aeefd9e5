/-!
# Paths

A path is a text of names with slashes between them. Empty names and single points do not count,
except a point at the very beginning.
-/

namespace AuthCore.Path

/-- The names between the slashes of a path. -/
def names (path : String) : List String := (path.toList.splitOn '/').map String.ofList

/-- Whether a path starts at the root. -/
def isRooted (path : String) : Bool := path.toList.head? == some '/'

/-- What stands in front of the names: the root, a point for the current directory, or nothing. -/
def head (path : String) : List Char :=
  match path.toList with
  | '/' :: _ => ['/']
  | ['.'] => ['.']
  | '.' :: '/' :: _ => ['.']
  | _ => []

/-- Names without the last ones that do not count. -/
def trimmed (parts : List (List Char)) : List (List Char) :=
  (parts.reverse.dropWhile fun p => p.isEmpty || p == ['.']).reverse

/-- A path without its last name; the root, and nothing, have none. -/
def parent? (path : String) : Option String :=
  let head := head path
  let parts := trimmed ((path.toList.drop head.length).splitOn '/')
  if parts.isEmpty then
    if head == ['.'] then some "" else none
  else some (String.ofList (head ++ ['/'].intercalate (trimmed parts.dropLast)))

/-- Some number of parents of a path, the outermost first. -/
def ancestorsUpTo : Nat → String → List String
  | 0, _ => []
  | n + 1, path =>
    match parent? path with
    | some p => ancestorsUpTo n p ++ [p]
    | none => []

/-- All parents of a path, the outermost first. -/
def ancestors (path : String) : List String := ancestorsUpTo path.length path

end AuthCore.Path
