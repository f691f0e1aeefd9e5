import AuthCore.Command.Surroundings
import AuthCore.Draws
import Std.Time.DateTime.Timestamp

/-!
# The program

Reads the surroundings of a command line, lets the library carry the command out on them, and writes
back what has changed. The program is the command line of the administrator, or that of migrations
if it is called `migration`. It never reaches a Redis server.
-/

namespace AuthCore.Program

/-- What is at a path, if anything is; what cannot be read as a text counts as a directory. -/
def look (path : String) : IO (Option FileNode) := do
  try
    return some (.ofContent (← IO.FS.readFile path))
  catch
    | .noFileOrDirectory .. => return none
    | _ => return some .directory

/-- The ground with what is at some paths. -/
def ground (home : String) (environment : List (String × String)) (paths : List String) :
    IO Ground := do
  let found ← paths.filterMapM fun path => return (← look path).map (path, ·)
  return ⟨.snapshot home found, environment, none, []⟩

/-- The variables that are set. -/
def environment (names : List String) : IO (List (String × String)) :=
  names.filterMapM fun name => return (← IO.getEnv name).map (name, ·)

/-- Writes what has changed, and shows what was logged. -/
def settle (before after : Ground) : IO Unit := do
  for (place, node) in before.files.changes after.files do
    match node.content? with
    | none => IO.FS.createDirAll (FileTree.path place)
    | some s => IO.FS.writeFile (FileTree.path place) s
  for event in after.log do
    IO.eprintln event.toJson.text

/-- The time and some random numbers. -/
def moment : IO Moment := do
  let now ← Std.Time.Timestamp.now
  let bytes ← IO.getRandomBytes 1024
  return (Draws.ofBytes bytes).moment now.toNanosecondsSinceUnixEpoch.val.toNat

/-- The command line of the administrator. -/
def administer (line : List String) : IO UInt32 := do
  let home := (← IO.currentDir).toString
  let environment ← environment Config.variableNames
  let configPath := Config.pathIn environment
  let early ← ground home environment [configPath]
  let before ← ground home environment (configPath :: Command.databasePaths early)
  let (outcome, after) := Command.run (← moment) line before
  settle before after
  if outcome.output ≠ "" then IO.println outcome.output
  if let some e := outcome.error then IO.eprintln e.message
  return UInt32.ofNat outcome.status

/-- The command line of migrations. -/
def migrate (line : List String) : IO UInt32 := do
  let home := (← IO.currentDir).toString
  let environment ← environment [MigrationCommand.addressVariable]
  let early ← ground home environment []
  let before ← ground home environment (MigrationCommand.databasePaths line early)
  let (status, after) := MigrationCommand.run line before
  settle before after
  return UInt32.ofNat status

end AuthCore.Program

/-- Carries out a command line; the answer is the status the program ends with. -/
def main (line : List String) : IO UInt32 := do
  if (← IO.appPath).fileName = some "migration" then AuthCore.Program.migrate line
  else AuthCore.Program.administer line
