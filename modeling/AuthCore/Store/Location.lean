import AuthCore.Text.Integer
import AuthCore.Text.Percent

/-!
# Where a database is

The address of a database names a file behind `sqlite:` or `sqlite://`, up to a question mark, and
options behind it. An address with `:memory:` in it names no file.

## Main definitions

* `DatabaseAddress.path?`: the file that is created before the database is opened.
* `DatabaseAddress.options?`: how the database is opened.
* `DatabaseAddress.redacted`: the address without names and passwords, for the log.
-/

namespace AuthCore

/-- How a database is opened. -/
structure DatabaseOptions where
  /-- The file, unless the database lives in memory. -/
  file : Option String
  /-- Whether writes are refused. -/
  readOnly : Bool
  /-- Whether a missing file is created. -/
  create : Bool
  deriving DecidableEq, Repr

namespace DatabaseAddress

/-- What is behind a beginning of a text. -/
def behind? (start : List Char) (cs : List Char) : Option (List Char) :=
  if start.isPrefixOf cs then some (cs.drop start.length) else none

/-- Whether a text occurs in another. -/
def occurs (pattern : List Char) : List Char → Bool
  | [] => pattern.isEmpty
  | c :: cs => pattern.isPrefixOf (c :: cs) || occurs pattern cs

/-- Whether an address names a file. -/
def isFile (url : String) : Bool :=
  "sqlite:".toList.isPrefixOf url.toList && !occurs ":memory:".toList url.toList

/-- The name of the file, as it is written. -/
def path? (url : String) : Option String := do
  guard (isFile url)
  let rest ← (behind? "sqlite://".toList url.toList).or (behind? "sqlite:".toList url.toList)
  return String.ofList (rest.takeWhile (· != '?'))

/-- What is behind a beginning that may be repeated any number of times. -/
def behindAll (start : List Char) : Nat → List Char → List Char
  | 0, cs => cs
  | n + 1, cs =>
    match behind? start cs with
    | some rest => behindAll start n rest
    | none => cs

/-- The names under which files are accessed. -/
def accessNames : List String := ["unix", "unix-none", "unix-dotfile", "unix-excl"]

/-- Takes an option into account; an option that is unknown or has a wrong value is refused. -/
def withOption (o : DatabaseOptions) : String × String → Option DatabaseOptions
  | ("mode", "ro") => some { o with readOnly := true }
  | ("mode", "rw") => some o
  | ("mode", "rwc") => some { o with create := true }
  | ("mode", "memory") => some { o with file := none }
  | ("cache", "private") | ("cache", "shared") => some o
  | ("immutable", "true") | ("immutable", "1") => some { o with readOnly := true }
  | ("immutable", "false") | ("immutable", "0") => some o
  | ("vfs", name) => if accessNames.contains name then some o else none
  | _ => none

/-- How the database at an address is opened. -/
def options? (url : String) : Option DatabaseOptions := do
  let cs := behindAll "sqlite://".toList url.length url.toList
  let cs := behindAll "sqlite:".toList url.length cs
  let name := String.ofList (cs.takeWhile (· != '?'))
  let file ← if name = ":memory:" then some none else (Text.percentDecode? name).map some
  let query := String.ofList ((cs.dropWhile (· != '?')).drop 1)
  (Text.queryPairs query).foldlM withOption ⟨file, false, false⟩

/-- What stands in front of the first occurrence of a text in another. -/
def before? (pattern : List Char) : List Char → Option (List Char)
  | [] => none
  | c :: cs =>
    if pattern.isPrefixOf (c :: cs) then some [] else (before? pattern cs).map (c :: ·)

/-- An address without what stands between `://` and the last `@`. -/
def redacted (url : String) : String :=
  let cs := url.toList
  let host := (cs.reverse.takeWhile (· != '@')).reverse
  match before? "://".toList cs with
  | some scheme =>
    if host.length < cs.length && scheme.length + host.length + 1 < cs.length then
      String.ofList (scheme ++ "://***@".toList ++ host)
    else url
  | none => url

end DatabaseAddress

end AuthCore
