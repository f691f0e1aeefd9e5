import AuthCore.Command.Basic

/-!
# The command line of migrations

Migrations can be applied and taken back one by one. The database is named by an option, by an
environment variable, or is in the usual place, which is looked for from the directory above if the
program works in a directory called `migration`.
-/

namespace AuthCore

/-- A command about migrations. -/
inductive MigrationCommand where
  /-- Apply a number of pending migrations, or all of them. -/
  | up (steps : Option Nat)
  /-- Take a number of applied migrations back. -/
  | down (steps : Nat)
  /-- Look which migrations are applied. -/
  | status
  /-- Take everything back and apply it again. -/
  | refresh
  /-- Take everything back. -/
  | reset
  deriving DecidableEq, Repr

namespace MigrationCommand

/-- The options that every command takes. -/
def commonRules : List OptionRule :=
  [⟨"verbose", some 'v', none⟩, ⟨"database-schema", some 's', some fun _ => true⟩,
   ⟨"database-url", some 'u', some fun _ => true⟩]

/-- The option with a number of migrations. -/
def numberRule : OptionRule := ⟨"num", some 'n', some fun s => (Command.count? s).isSome⟩

/-- The number of migrations that is asked for. -/
def number? (a : Arguments) : Option Nat := (a.value? "num").bind Command.count?

/-- Reads a command without a number. -/
def plain (c : MigrationCommand) (rest : List String) :
    Except Refused (MigrationCommand × Arguments) := do
  return (c, ← Arguments.readAll commonRules 0 rest)

/-- Reads a command with a number. -/
def counted (f : Option Nat → MigrationCommand) (rest : List String) :
    Except Refused (MigrationCommand × Arguments) := do
  let a ← Arguments.readAll (numberRule :: commonRules) 0 rest
  return (f (number? a), a)

/-- The command that a command line stands for, and the address of the database if it has one. -/
def ofArguments (line : List String) : Except Refused (MigrationCommand × Option String) := do
  let (before, name, rest) ← Arguments.splitCommand commonRules line
  let (c, behind) ← match name with
    | none => pure (up none, Arguments.empty)
    | some "up" => counted up rest
    | some "down" => counted (fun n => down (n.getD 1)) rest
    | some "status" => plain status rest
    | some "refresh" => plain refresh rest
    | some "reset" => plain reset rest
    | some "help" => throw .help
    | some _ => throw .misuse
  return (c, (behind.value? "database-url").or (before.value? "database-url"))

/-- What a command does to a database. -/
def apply : MigrationCommand → Database → Except Refusal Unit × Database
  | up steps, db => db.migrateUp steps
  | down steps, db => db.migrateDown (some steps)
  | status, db =>
    let (r, db) := db.pendingCount
    (r.map fun _ => (), db)
  | refresh, db => db.migrateAfresh
  | reset, db => db.migrateDown none

/-- The address of the database when none is given. -/
def usualAddress (home : Place) : String :=
  if home.getLast? = some "migration" then "sqlite://../data/commerce_auth.db?mode=rwc"
  else "sqlite://data/commerce_auth.db?mode=rwc"

/-- The variable with the address of the database. -/
def addressVariable : String := "DATABASE_URL"

/-- The status of a run that failed. -/
def failure : Nat := 101

/-- Carries a command out on the database at an address; the answer is the status. -/
def carryOut (c : MigrationCommand) (url : String) (files : FileTree) : Nat × FileTree :=
  match Connection.openAt url files with
  | none => (failure, files)
  | some (connection, files) =>
    let (r, db) := c.apply connection.database
    (if r.isOk then 0 else failure, Connection.save { connection with database := db } files)

/-- The address of the database: the one on the command line, in the environment, or the usual one.
-/
def address (url : Option String) (g : Ground) : String :=
  (url.or (g.environment.lookup addressVariable)).getD (usualAddress g.files.home)

/-- Does what a command line says; the answer is the status. -/
def run (line : List String) (g : Ground) : Nat × Ground :=
  match ofArguments line with
  | .error .misuse => (2, g)
  | .error _ => (0, g)
  | .ok (c, url) =>
    let (code, files) := carryOut c (address url g) g.files
    (code, { g with files := files })

end MigrationCommand

end AuthCore
