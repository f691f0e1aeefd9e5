import AuthCore.Files.Path
import AuthCore.OrderedMap
import AuthCore.Store.Database

/-!
# File trees

Directories and files as data. A file holds a text or a database. A path is followed name by name
from the root or from the directory the program works in; a name leads on only from a directory.

## Main definitions

* `FileTree`: directories and files, and the directory to work in.
* `FileTree.find`: where a path leads.
* `FileTree.makeDirectories`, `FileTree.createFile`: what is created on the way to a new file.
-/

namespace AuthCore

/-- The names on the way from the root. -/
abbrev Place := List String

/-- What is at a place. -/
inductive FileNode where
  | directory
  | text (content : String)
  | database (db : Database)

namespace FileNode

/-- Whether a node is a directory. -/
def isDirectory : FileNode → Bool
  | directory => true
  | _ => false

end FileNode

/-- Directories and files. -/
structure FileTree where
  /-- What is at each place but the root, which is a directory. -/
  nodes : OrderedMap Place FileNode
  /-- The directory that paths start from. -/
  home : Place

/-- Where a path leads. -/
inductive Spot where
  /-- To a place where something is. -/
  | taken (place : Place) (node : FileNode)
  /-- To a place in a directory where nothing is, and that can only become a directory if the path
  ends in a slash. -/
  | free (place : Place) (onlyDirectory : Bool)
  /-- Nowhere. -/
  | nowhere

namespace FileTree

/-- An empty tree and a directory to work in. -/
def empty (home : Place) : FileTree := ⟨.empty, home⟩

/-- What is at a place. -/
def node? (t : FileTree) (place : Place) : Option FileNode :=
  if place.isEmpty then some .directory else t.nodes.get? place

/-- The tree with a node put at a place. -/
def put (place : Place) (n : FileNode) (t : FileTree) : FileTree :=
  { t with nodes := t.nodes.insert place n }

/-- The greatest length of a name in bytes. -/
def maxName : Nat := 255

/-- Whether something can have a name. -/
def isName (name : String) : Bool := name.utf8ByteSize ≤ maxName && !name.toList.contains '\x00'

/-- Where names lead from a place. -/
def follow (t : FileTree) (place : Place) : List String → Spot
  | [] =>
    match t.node? place with
    | some n => .taken place n
    | none => .nowhere
  | name :: rest =>
    if ((t.node? place).map (·.isDirectory)).getD false then
      if name = "" || name = "." then follow t place rest
      else if name = ".." then follow t place.dropLast rest
      else
        let next := place ++ [name]
        match t.node? next with
        | some _ => follow t next rest
        | none =>
          if isName name && rest.all (· = "") then .free next (!rest.isEmpty) else .nowhere
    else .nowhere

/-- Where a path leads. -/
def find (t : FileTree) (path : String) : Spot :=
  if path = "" then .nowhere
  else t.follow (if Path.isRooted path then [] else t.home) (Path.names path)

/-- Whether a path leads to something. -/
def contains (t : FileTree) (path : String) : Bool :=
  match t.find path with
  | .taken _ _ => true
  | _ => false

/-- The text at a path. -/
def read? (t : FileTree) (path : String) : Option String :=
  match t.find path with
  | .taken _ (.text content) => some content
  | _ => none

/-- Makes sure that there is a directory at a path whose parents are there; `false` if there cannot
be one. -/
def makeDirectory (path : String) (t : FileTree) : Bool × FileTree :=
  match t.find path with
  | .taken _ n => (n.isDirectory, t)
  | .free place _ => (true, t.put place .directory)
  | .nowhere => (path = "", t)

/-- Makes sure that there are directories at paths. -/
def makeEach : List String → FileTree → Bool × FileTree
  | [], t => (true, t)
  | path :: paths, t =>
    match t.makeDirectory path with
    | (true, t) => makeEach paths t
    | failed => failed

/-- Makes sure that there is a directory at a path and at its parents. -/
def makeDirectories (path : String) (t : FileTree) : Bool × FileTree :=
  makeEach (Path.ancestors path ++ [path]) t

/-- Creates an empty file at a path where nothing is. -/
def createFile (path : String) (t : FileTree) : Bool × FileTree :=
  match t.find path with
  | .free place false => (true, t.put place (.text ""))
  | _ => (false, t)

/-- The tree with a file put at a path, and directories on the way to it. -/
def putFile (path : String) (n : FileNode) (t : FileTree) : FileTree :=
  let t := match Path.parent? path with
    | some p => (t.makeDirectories p).2
    | none => t
  match t.find path with
  | .free place false => t.put place n
  | .taken place _ => t.put place n
  | _ => t

/-- Files with texts in them, by their paths from the directory to work in. -/
def ofFiles (home : Place) (files : List (String × String)) : FileTree :=
  files.foldl (fun t f => t.putFile f.1 (.text f.2)) ((empty home).put home .directory)

/-- The names below the directory to work in, sorted, with a slash behind each directory. -/
def listing (t : FileTree) : List String :=
  let below := t.nodes.entries.filter fun e => t.home.isPrefixOf e.1 && e.1 != t.home
  let names := below.map fun e =>
    let name := "/".intercalate (e.1.drop t.home.length)
    if e.2.isDirectory then name ++ "/" else name
  names.mergeSort fun a b => decide (a ≤ b)

end FileTree

end AuthCore
