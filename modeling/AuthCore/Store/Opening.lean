import AuthCore.Config.Basic
import AuthCore.Http.Address
import AuthCore.Startup.Basic
import AuthCore.Store.Location

/-!
# Opening a database

A database lives in memory or in a file. Before a database is opened, its file and the directories
on the way to it are created. A file with a text in it opens, but is no database.
-/

namespace AuthCore

/-- An open database. -/
structure Connection where
  /-- Where its file is, unless it lives in memory. -/
  place : Option Place
  /-- The database. -/
  database : Database

namespace Connection

/-- Makes sure that there is a file for a database. -/
def ensureFile (url : String) : Startup Unit := do
  let some path := DatabaseAddress.path? url | return ()
  match Path.parent? path with
  | none => pure ()
  | some parent =>
    if parent ≠ "" && !(← get).files.contains parent then
      Startup.create (·.makeDirectories parent) (.config (.databaseDirectory parent))
      Startup.log (.directoryCreated parent)
  if !(← get).files.contains path then
    Startup.create (·.createFile path) (.config (.databaseFile path))
    Startup.log (.fileCreated path)

/-- The database in a file. -/
def databaseIn : FileNode → Option Database
  | .directory => none
  | .text "" => some .empty
  | .text _ => some .broken
  | .database db => some db

/-- Opens the database in a file, which may have to be created. -/
def openFile (path : String) (o : DatabaseOptions) (files : FileTree) :
    Option (Connection × FileTree) :=
  match files.find path with
  | .taken place n =>
    (databaseIn n).map fun db => (⟨some place, { db with readOnly := o.readOnly }⟩, files)
  | .free place false =>
    if o.create && !o.readOnly then some (⟨some place, .empty⟩, files.put place (.text ""))
    else none
  | _ => none

/-- Opens the database at an address, if there is a way. -/
def openAt (url : String) (files : FileTree) : Option (Connection × FileTree) := do
  guard (Address.scheme? url == some "sqlite")
  let o ← DatabaseAddress.options? url
  match o.file with
  | none => return (⟨none, { Database.empty with readOnly := o.readOnly }⟩, files)
  | some path => openFile path o files

/-- Opens the database of a configuration; at least one connection and some time are needed. -/
def connect (c : DatabaseConfig) : Startup Connection := fun g =>
  match if c.maxConnections = 0 || c.connectTimeout = 0 then none else openAt c.url g.files with
  | some (connection, files) => (.ok connection, { g with files := files })
  | none => (.error (.database .connect), g)

/-- Creates and opens the database of a configuration. -/
def forConfig (c : DatabaseConfig) : Startup Connection := do
  Startup.log (.databaseConnecting (DatabaseAddress.redacted c.url))
  ensureFile c.url
  let connection ← connect c
  Startup.log .databaseConnected
  return connection

/-- Writes what has become of a database into its file. -/
def save (c : Connection) (files : FileTree) : FileTree :=
  match c.place with
  | some place => if c.database.hasRecord then files.put place (.database c.database) else files
  | none => files

/-- Does something with the database in a file; the answer is `none` if there is no file. -/
def inFile (f : Database → α × Database) (path : String) (files : FileTree) :
    Option α × FileTree :=
  match openFile path ⟨some path, false, false⟩ files with
  | some (connection, files) =>
    let (a, db) := f connection.database
    (some a, save { connection with database := db } files)
  | none => (none, files)

end Connection

end AuthCore
