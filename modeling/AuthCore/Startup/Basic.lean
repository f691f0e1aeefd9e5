import AuthCore.Cache.Remote
import AuthCore.Files.Tree
import AuthCore.Log.Event

/-!
# Starting up

What the program finds around it before there is a cache or a store: files, environment variables
and perhaps a Redis server. An operation of the start answers with a value or an error; what it has
created before an error stays.
-/

namespace AuthCore

/-- What the program starts on. -/
structure Ground where
  /-- The files. -/
  files : FileTree
  /-- The environment variables. -/
  environment : List (String × String)
  /-- The Redis server, if one answers. -/
  server : Option RemoteCache
  /-- What was logged. -/
  log : List Event

/-- An operation of the start. -/
abbrev Startup := ExceptT Error (StateM Ground)

namespace Startup

/-- Runs an operation. -/
def perform (s : Startup α) (g : Ground) : Answer α × Ground := s.run.run g

/-- The answer of an operation, which itself does not fail. -/
def attempt (s : Startup α) : Startup (Answer α) := fun g =>
  let (r, g) := s.perform g
  (.ok r, g)

/-- Logs an event. -/
def log (e : Event) : Startup Unit := modify fun g => { g with log := g.log ++ [e] }

/-- The value of an environment variable, if it is set. -/
def environment? (name : String) : Startup (Option String) :=
  return (← get).environment.lookup name

/-- The Redis server, if one answers. -/
def server? : Startup (Option RemoteCache) := return (← get).server

/-- Changes the files, or fails. -/
def create (f : FileTree → Bool × FileTree) (e : Error) : Startup Unit := fun g =>
  let (done, files) := f g.files
  (if done then .ok () else .error e, { g with files := files })

end Startup

end AuthCore
