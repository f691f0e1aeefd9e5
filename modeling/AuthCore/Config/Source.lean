import AuthCore.Config.Rules
import AuthCore.Startup.Basic
import AuthCore.Toml.Reader

/-!
# Where a configuration comes from

A configuration is read from a text or from a file, then some environment variables take the place
of what was read, and then the rules are checked. Which file is read is said by an environment
variable, too; without one there is a usual place, and if nothing is there all defaults are taken.
-/

namespace AuthCore

/-- A configuration and the file it was read from, if any. -/
structure SourcedConfig where
  /-- The configuration. -/
  config : Config
  /-- The path of the file. -/
  source : Option String

namespace Config

/-- The variable with the path of the file. -/
def pathVariable : String := "COMMERCE_AUTH_CONFIG"

/-- The variable with the name of the environment. -/
def environmentVariable : String := "RUST_ENV"

/-- The usual place of the file. -/
def usualPath (environment : String) : String := "config/config." ++ environment ++ ".toml"

/-- Reads the text of a configuration. -/
def ofText? (s : String) : Option Config := (Toml.ofText? s).bind fun v => ofJson? v.toJson

/-- The truth value that a text stands for. -/
def truth? : String → Option Bool
  | "true" => some true
  | "false" => some false
  | _ => none

/-- Lets a variable take the place of a part of the configuration, if it is set. -/
def override (name what : String) (f : String → Config) (c : Config) : Startup Config := do
  match ← Startup.environment? name with
  | some value =>
    Startup.log (.overridden what)
    return f value
  | none => return c

/-- The configuration with a Redis cache at an address. -/
def withRedis (c : Config) (url : String) : Config :=
  { c with
    cache.cacheType := .redis
    cache.redis := some { c.cache.redis.getD {} with url := url } }

/-- Lets a variable say whether codes are fixed for tests. -/
def overrideTestMode (c : Config) : Startup Config := do
  match ← Startup.environment? "COMMERCE_AUTH_OTP_TEST_MODE" with
  | some value =>
    match truth? value with
    | some b =>
      Startup.log (.overridden ("otp.test_mode = " ++ Event.truth b))
      return { c with otp.testMode := b }
    | none => throw (.config (.testModeValue value))
  | none => return c

/-- Lets the variables take the place of parts of the configuration. -/
def overrides (c : Config) : Startup Config := do
  let c ← override "COMMERCE_AUTH_DATABASE_URL" "database.url"
    (fun url => { c with database.url := url }) c
  let c ← override "COMMERCE_AUTH_REDIS_URL" "cache.redis.url" c.withRedis c
  let c ← override "COMMERCE_AUTH_JWT_SECRET" "jwt.secret_key = ***"
    (fun secret => { c with jwt.secretKey := secret }) c
  overrideTestMode c

/-- Overrides and checks a configuration that was read. -/
def settle (c : Config) : Startup Config := do
  let c ← overrides c
  match c.violation? with
  | some rule => throw (.config (.invalid rule))
  | none =>
    Startup.log (.configReady c.cache.cacheType c.otp.testMode)
    return c

/-- The configuration in a text. -/
def ofText (s : String) : Startup SourcedConfig := do
  match ofText? s with
  | some c => return ⟨← settle c, none⟩
  | none => throw (.config .textMalformed)

/-- The configuration in a file. -/
def ofFile (path : String) : Startup SourcedConfig := do
  let files := (← get).files
  if !files.contains path then throw (.config (.fileMissing path))
  let some s := files.read? path | throw (.config (.fileUnreadable path))
  let some c := ofText? s | throw (.config (.fileMalformed path))
  return ⟨← settle c, some path⟩

/-- The configuration that applies here. -/
def load : Startup SourcedConfig := do
  match ← Startup.environment? pathVariable with
  | some path => ofFile path
  | none =>
    let path := usualPath ((← Startup.environment? environmentVariable).getD "dev")
    if (← get).files.contains path then ofFile path
    else
      Startup.log (.defaultConfig path)
      return ⟨← settle {}, none⟩

end Config

end AuthCore
