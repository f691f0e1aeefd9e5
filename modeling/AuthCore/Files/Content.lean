import AuthCore.Files.Tree
import AuthCore.Store.Document

/-!
# The contents of files

A file outside holds a text. Inside a tree it is a database if its text is the document of one.
What a run has changed is the difference between the tree before it and the tree after it.
-/

namespace AuthCore

namespace FileNode

/-- The text of a file; a directory has none. -/
def content? : FileNode → Option String
  | directory => none
  | text s => some s
  | database db => some db.text

/-- A file with a text in it. -/
def ofContent (s : String) : FileNode :=
  match Database.ofText? s with
  | some db => .database db
  | none => .text s

end FileNode

namespace FileTree

/-- The path of a place. -/
def path (place : Place) : String := "/" ++ "/".intercalate place

/-- A tree seen from a directory: what is at some paths. -/
def snapshot (home : String) (files : List (String × FileNode)) : FileTree :=
  let place := (Path.names home).filter (· ≠ "")
  files.foldl (fun t f => t.putFile f.1 f.2) ((empty place).makeDirectories (path place)).2

/-- The places whose content is not what it was before; each directory is in front of what is in
it. -/
def changes (before after : FileTree) : List (Place × FileNode) :=
  after.nodes.entries.filter fun e => (before.node? e.1).map FileNode.content? ≠ some e.2.content?

end FileTree

end AuthCore
