import AuthCore.Command.Migrations
import AuthCore.Files.Content

/-!
# What a command line looks at

Before a command is carried out, the variables and files that it may look at are collected. Which
file holds the database is known only when the configuration has been read, so the paths are found
in two steps.
-/

namespace AuthCore

namespace Config

/-- The variables that say where the configuration is, and those that take the place of parts of
it. -/
def variableNames : List String :=
  [pathVariable, environmentVariable, "COMMERCE_AUTH_DATABASE_URL", "COMMERCE_AUTH_REDIS_URL",
   "COMMERCE_AUTH_JWT_SECRET", "COMMERCE_AUTH_OTP_TEST_MODE"]

/-- The path of the file that a configuration is read from. -/
def pathIn (environment : List (String × String)) : String :=
  (environment.lookup pathVariable).getD
    (usualPath ((environment.lookup environmentVariable).getD "dev"))

end Config

/-- The paths at which the file of a database is looked for, each behind the directory it is in. -/
def DatabaseAddress.paths (url : String) : List String :=
  ((path? url).toList ++ ((options? url).bind (·.file)).toList).flatMap fun path =>
    (Path.parent? path).toList ++ [path]

/-- The paths of the database that a command uses on a ground which has the configuration. -/
def Command.databasePaths (g : Ground) : List String :=
  match Config.load.perform g with
  | (.ok c, _) => DatabaseAddress.paths c.config.database.url
  | (.error _, _) => []

/-- The paths of the database that a command about migrations uses. -/
def MigrationCommand.databasePaths (line : List String) (g : Ground) : List String :=
  match ofArguments line with
  | .ok (_, url) => DatabaseAddress.paths (address url g)
  | .error _ => []

end AuthCore
