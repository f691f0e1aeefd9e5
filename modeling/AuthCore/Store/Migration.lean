import AuthCore.Store.Database
import AuthCore.Store.Seed

/-!
# Migrations

The steps that lead from an empty database to one with all tables and the default contents. Those
that the database does not record are applied in order, and those that it records are taken back in
reverse order; each one is recorded, or struck out, when it is done. A step that fails in the middle
leaves what it has done so far.
-/

namespace AuthCore

/-- Why a database refuses a statement. -/
inductive Refusal where
  /-- The database takes no writes. -/
  | readOnly
  /-- A value that must be unique is there already. -/
  | duplicate (column : String)
  /-- The file is no database. -/
  | damaged
  deriving DecidableEq, Repr

/-- The report of a refusal. -/
def Refusal.message (r : Refusal) : String :=
  let report := match r with
    | .readOnly => "(code: 8) attempt to write a readonly database"
    | .duplicate column => "(code: 2067) UNIQUE constraint failed: " ++ column
    | .damaged => "(code: 26) file is not a database"
  "Execution Error: error returned from database: " ++ report

namespace Migration

/-- All migrations, in the order in which they are applied. -/
def all : List Migration := [usersTable, groupsTable, entitiesTable, defaultContents]

/-- Puts in rows one after the other, up to the first that is refused. -/
def insertAll (insert : ρ → Database → Bool × Database) (column : String) :
    List ρ → Database → Except Refusal Unit × Database
  | [], db => (.ok (), db)
  | r :: rs, db =>
    match insert r db with
    | (true, db) => insertAll insert column rs db
    | (false, db) => (.error (.duplicate column), db)

/-- Applies a migration. -/
def up (m : Migration) (db : Database) : Except Refusal Unit × Database :=
  if db.readOnly then (.error .readOnly, db)
  else
    match m with
    | usersTable => (.ok (), { db with users := some (db.users.getD .empty) })
    | groupsTable => (.ok (), { db with groups := some (db.groups.getD []) })
    | entitiesTable => (.ok (), { db with entities := some (db.entities.getD []) })
    | defaultContents =>
      match insertAll Database.insertEntityRow "entities.code_name" Seed.entityRows db with
      | (.ok (), db) => insertAll Database.insertGroupRow "groups.name" Seed.groupRows db
      | failed => failed

/-- Takes a migration back. -/
def down (m : Migration) (db : Database) : Except Refusal Unit × Database :=
  if db.readOnly then (.error .readOnly, db)
  else
    match m with
    | usersTable => (.ok (), { db with users := none })
    | groupsTable => (.ok (), { db with groups := none })
    | entitiesTable => (.ok (), { db with entities := none })
    | defaultContents =>
      (.ok (),
        { db with
          groups := db.groups.map fun rows =>
            rows.filter fun r => !Seed.groupNames.contains r.name
          entities := db.entities.map fun rows =>
            rows.filter fun r => !Seed.entityNames.contains r.codeName })

end Migration

namespace Database

/-- Makes sure that there is a record of the applied migrations. -/
def startRecord (db : Database) : Except Refusal Unit × Database :=
  if db.damaged then (.error .damaged, db)
  else if db.hasRecord then (.ok (), db)
  else if db.readOnly then (.error .readOnly, db)
  else (.ok (), { db with hasRecord := true })

/-- The migrations that are recorded, in the order in which they are applied. -/
def recorded (db : Database) : List Migration := Migration.all.filter db.applied.contains

/-- The migrations that are not recorded, in the order in which they are applied. -/
def pending (db : Database) : List Migration :=
  Migration.all.filter fun m => !db.applied.contains m

/-- Applies migrations one after the other, and records them. -/
def applyAll : List Migration → Database → Except Refusal Unit × Database
  | [], db => (.ok (), db)
  | m :: ms, db =>
    match m.up db with
    | (.ok (), db) => applyAll ms { db with applied := db.applied ++ [m] }
    | failed => failed

/-- Takes migrations back one after the other, and strikes them out. -/
def revertAll : List Migration → Database → Except Refusal Unit × Database
  | [], db => (.ok (), db)
  | m :: ms, db =>
    match m.down db with
    | (.ok (), db) => revertAll ms { db with applied := db.applied.filter (· ≠ m) }
    | failed => failed

/-- The first items of a list, or all of them. -/
def firstOf (steps : Option Nat) (ms : List Migration) : List Migration :=
  match steps with
  | some n => ms.take n
  | none => ms

/-- Applies a number of pending migrations, or all of them. -/
def migrateUp (steps : Option Nat) (db : Database) : Except Refusal Unit × Database :=
  match db.startRecord with
  | (.ok (), db) => applyAll (firstOf steps db.pending) db
  | failed => failed

/-- Takes back a number of applied migrations, or all of them. -/
def migrateDown (steps : Option Nat) (db : Database) : Except Refusal Unit × Database :=
  match db.startRecord with
  | (.ok (), db) => revertAll (firstOf steps db.recorded.reverse) db
  | failed => failed

/-- Takes back everything and applies it again. -/
def migrateAfresh (db : Database) : Except Refusal Unit × Database :=
  match db.migrateDown none with
  | (.ok (), db) => db.migrateUp none
  | failed => failed

/-- The number of pending migrations. -/
def pendingCount (db : Database) : Except Refusal Nat × Database :=
  match db.startRecord with
  | (.ok (), db) => (.ok db.pending.length, db)
  | (.error r, db) => (.error r, db)

end Database

end AuthCore
