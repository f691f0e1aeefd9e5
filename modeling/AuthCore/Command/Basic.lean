import AuthCore.Account.SignIn
import AuthCore.Cache.Opening
import AuthCore.Command.Arguments
import AuthCore.Config.Source
import AuthCore.Store.Opening
import AuthCore.Store.Upkeep

/-!
# The command line

What an administrator can do: set up the database, check the configuration, hash a password, and
issue tokens. A command answers with the text it prints; a failed one says why in the log.

## Main definitions

* `Command.ofArguments`: the command that a command line stands for.
* `Command.perform`: what a command does.
* `Command.run`: a whole run, from the words of the command line to the status it ends with.
-/

namespace AuthCore

/-- A command. -/
inductive Command where
  /-- Set up the database. -/
  | migrate
  /-- Check the configuration and the cache. -/
  | checkConfig
  /-- Hash a password. -/
  | hashPassword (password : String) (cost : Nat)
  /-- Issue tokens for a user. -/
  | issueToken (user : Int) (role : Role) (limited : Bool)
  deriving DecidableEq

/-- How a run ended. -/
structure Outcome where
  /-- The status: zero is success. -/
  status : Nat
  /-- What was printed. -/
  output : String
  /-- The error it ended with, if any. -/
  error : Option Error

namespace Startup

/-- Runs an action in a world; the world is answered even if the action fails. -/
def work (m : Moment) (w : World) (a : Action α) : Startup (Answer α × World) := do
  let (r, w) := a.perform m w
  modify fun g => { g with log := g.log ++ w.log }
  return (r, w)

/-- The value of an answer. -/
def ofAnswer (r : Answer α) : Startup α := fun g => (r, g)

/-- Runs an action on an open database, and saves the database. -/
def workOn (m : Moment) (c : Connection) (a : Action α) : Startup α := do
  let (r, w) ← work m (Action.worldOf (.memory (.new 1)) (.database c.database) .log) a
  match w.store with
  | .database db =>
    modify fun g => { g with files := Connection.save { c with database := db } g.files }
  | .memory _ => pure ()
  ofAnswer r

end Startup

namespace Command

/-! ### Reading a command line -/

/-- The name and version of the program. -/
def title : String := "commerce-auth 0.1.0"

/-- The cost of a hash when none is asked for. -/
def usualCost : Nat := 12

/-- A number between two others, as a text. -/
def number? (low high : Int) (s : String) : Option Int :=
  (Text.signed? 64 s).filter fun n => low ≤ n && n ≤ high

/-- The number of a user, as a text. -/
def userNumber? : String → Option Int := number? (-(2 ^ 31)) (2 ^ 31 - 1)

/-- A number of 32 bits, as a text. -/
def count? (s : String) : Option Nat := (number? 0 (2 ^ 32 - 1) s).map Int.toNat

/-- The option that every command takes. -/
def logLevel : OptionRule := ⟨"log-level", none, some fun _ => true⟩

/-- The option with the cost of a hash. -/
def costRule : OptionRule := ⟨"cost", none, some fun s => (count? s).isSome⟩

/-- The options of issuing tokens. -/
def tokenRules : List OptionRule :=
  [⟨"user-id", none, some fun s => (userNumber? s).isSome⟩,
   ⟨"role", none, some fun s => (Role.ofName? s).isSome⟩, ⟨"limited", none, none⟩]

/-- Reads a command that takes nothing. -/
def plain (c : Command) (rest : List String) : Except Refused Command := do
  let _ ← Arguments.readAll [logLevel] 0 rest
  return c

/-- Reads a password and the cost of its hash. -/
def readHash (rest : List String) : Except Refused Command := do
  let a ← Arguments.readAll [logLevel, costRule] 1 rest
  return .hashPassword (a.words.headD "") (((a.value? "cost").bind count?).getD usualCost)

/-- Reads for whom tokens are issued. -/
def readToken (rest : List String) : Except Refused Command := do
  let a ← Arguments.readAll (logLevel :: tokenRules) 0 rest
  match (a.value? "user-id").bind userNumber?, (a.value? "role").bind Role.ofName? with
  | some user, some role => return .issueToken user role (a.has "limited")
  | _, _ => throw .misuse

/-- The names of the commands. -/
def names : List String := ["migrate", "check-config", "hash-password", "issue-token", "help"]

/-- The command that a command line stands for. -/
def ofArguments (line : List String) : Except Refused Command := do
  let (_, name, rest) ← Arguments.splitCommand [logLevel] line
  match name with
  | some "migrate" => plain migrate rest
  | some "check-config" => plain checkConfig rest
  | some "hash-password" => readHash rest
  | some "issue-token" => readToken rest
  | some "help" => throw (if rest.all names.contains then .help else .misuse)
  | _ => throw .misuse

/-! ### Doing it -/

/-- The configuration that applies here. -/
def loadConfig : Startup Config := do
  let c := (← Config.load).config
  Startup.log (.configLoaded c.cache.cacheType c.otp.testMode)
  return c

/-- Sets up the database. -/
def setUp (m : Moment) : Startup Unit := do
  let c ← loadConfig
  let connection ← Connection.forConfig c.database
  Startup.workOn m connection do
    Upkeep.migrate
    let _ ← Upkeep.pending
  Startup.log .migrationComplete

/-- Checks the configuration and the cache. -/
def check (m : Moment) : Startup Unit := do
  let c ← loadConfig
  let cache ← Cache.forConfig c.cache
  let (r, _) ← Startup.work m (Action.worldOf cache default .log)
    (Action.cached fun _ => Cache.ping)
  Startup.ofAnswer r
  Startup.log (.configChecked cache.kindName)

/-- Issues tokens and shows them as a document. -/
def showTokens (t : Tokens) (user : Int) (role : Role) (limited : Bool) : Action Json := do
  if limited then return .object [("access_token", .string (← t.issueLimited user role))]
  else return (← t.issue user role false).toJson

/-- Issues tokens. -/
def issue (m : Moment) (user : Int) (role : Role) (limited : Bool) : Startup String := do
  let c ← loadConfig
  let cache ← Cache.forConfig c.cache
  let connection ← Connection.forConfig c.database
  let tokens ← Startup.ofAnswer ((Tokens.ofConfig c.jwt).mapError .config)
  let (r, _) ← Startup.work m (Action.worldOf cache (.database connection.database) .log)
    (showTokens tokens user role limited)
  return (← Startup.ofAnswer r).text

/-- Does what a command says; the answer is what is printed. -/
def perform (m : Moment) : Command → Startup String
  | migrate => do
    setUp m
    return ""
  | checkConfig => do
    check m
    return ""
  | hashPassword password cost =>
    Startup.ofAnswer ((Password.hash cost m.salt password).mapError .internal)
  | issueToken user role limited => issue m user role limited

/-- Whether a failure of a command is logged. -/
def logsFailure : Command → Bool
  | hashPassword _ _ => false
  | _ => true

/-- Does what a command line says. -/
def run (m : Moment) (line : List String) (g : Ground) : Outcome × Ground :=
  match ofArguments line with
  | .error .misuse => (⟨2, "", none⟩, g)
  | .error .help => (⟨0, "", none⟩, g)
  | .error .version => (⟨0, title, none⟩, g)
  | .ok c =>
    match (c.perform m).perform g with
    | (.ok output, g) => (⟨0, output, none⟩, g)
    | (.error e, g) =>
      let g := if c.logsFailure then { g with log := g.log ++ [.commandFailed e] } else g
      (⟨1, "", some e⟩, g)

end Command

end AuthCore
