import AuthCore.Json.Decode
import AuthCore.Password

/-!
# Configuration

What can be configured, with its defaults, its written form, and the rules that it has to keep.
Every part and every field may be left out of the written form.
-/

namespace AuthCore

/-- The database. -/
structure DatabaseConfig where
  /-- The address of the database. -/
  url : String := "sqlite://./data/commerce_auth.db"
  /-- The greatest number of connections. -/
  maxConnections : Nat := 10
  /-- How many seconds to wait for a connection. -/
  connectTimeout : Nat := 30
  deriving DecidableEq, Inhabited

/-- The kind of cache. -/
inductive CacheType where
  | memory
  | redis
  deriving DecidableEq, Inhabited

/-- A Redis server. -/
structure RedisConfig where
  /-- The address of the server. -/
  url : String := "redis://127.0.0.1:6379/0"
  /-- The number of connections. -/
  poolSize : Nat := 10
  /-- How many seconds to wait for a connection. -/
  connectionTimeout : Nat := 10
  deriving DecidableEq, Inhabited

/-- The cache. -/
structure CacheConfig where
  /-- The kind of cache. -/
  cacheType : CacheType := .memory
  /-- How many entries the memory cache holds at most. -/
  memoryMaxEntries : Nat := 10000
  /-- The server of a Redis cache. -/
  redis : Option RedisConfig := none
  deriving DecidableEq, Inhabited

/-- Tokens. -/
structure JwtConfig where
  /-- The secret that signs all tokens. -/
  secretKey : String := ""
  /-- The name of the signing algorithm of access tokens. -/
  algorithm : String := "HS256"
  /-- The lifetime of an access token in seconds. -/
  accessTokenLifetime : Nat := 3600
  /-- The lifetime of a refresh token in seconds. -/
  refreshTokenLifetime : Nat := 36000
  deriving DecidableEq, Inhabited

/-- One-time codes. -/
structure OtpConfig where
  /-- The number of digits. -/
  length : Nat := 5
  /-- The lifetime in seconds. -/
  window : Nat := 120
  /-- How many wrong guesses are allowed. -/
  maxRetries : Int := 10
  /-- Whether the code is fixed and not delivered. -/
  testMode : Bool := false
  /-- The fixed code of the test mode. -/
  testCode : String := "12345"
  /-- The lifetime in the test mode in seconds. -/
  testWindow : Nat := 50
  /-- The text of a short message, with a place for the code. -/
  smsTemplate : String := "Your verification code: \x7bcode\x7d"
  /-- The subject of an e-mail that verifies an account. -/
  emailSubjectVerification : String := "Verification code"
  /-- The subject of an e-mail that resets a password. -/
  emailSubjectResetPassword : String := "Reset password code"
  deriving DecidableEq, Inhabited

/-- Passwords. -/
structure SecurityConfig where
  /-- The cost of a password hash. -/
  bcryptCost : Nat := Password.defaultCost
  /-- The length of the passwords that are made up for social accounts. -/
  randomPasswordLength : Nat := 16
  deriving DecidableEq, Inhabited

/-- The way messages are delivered. -/
inductive NotifierKind where
  /-- Messages are only logged. -/
  | log
  /-- Messages are posted to a gateway. -/
  | webhook
  deriving DecidableEq, Inhabited

/-- The delivery of messages. -/
structure NotifierConfig where
  /-- The way messages are delivered. -/
  kind : NotifierKind := .log
  /-- The gateway for short messages. -/
  smsUrl : Option String := none
  /-- The gateway for e-mails. -/
  emailUrl : Option String := none
  /-- The sender of e-mails. -/
  senderEmail : String := "no-reply@localhost"
  /-- How many seconds to wait for a gateway. -/
  timeout : Nat := 10
  deriving DecidableEq, Inhabited

/-- Sign-in with Google. -/
structure GoogleConfig where
  /-- The identity of this application. -/
  clientId : String := ""
  /-- Its secret. -/
  clientSecret : String := ""
  /-- Where users come back to. -/
  redirectUri : String := ""
  /-- Where codes are exchanged. -/
  tokenUrl : String := "https://oauth2.googleapis.com/token"
  /-- Where profiles are read. -/
  userinfoUrl : String := "https://www.googleapis.com/oauth2/v3/userinfo"
  /-- Where identity tokens are checked. -/
  tokeninfoUrl : String := "https://oauth2.googleapis.com/tokeninfo"
  deriving DecidableEq, Inhabited

/-- Sign-in with Facebook. -/
structure FacebookConfig where
  /-- The identity of this application. -/
  clientId : String := ""
  /-- Its secret. -/
  clientSecret : String := ""
  /-- Where users come back to. -/
  redirectUri : String := ""
  /-- The address of the service. -/
  graphUrl : String := "https://graph.facebook.com/v18.0"
  deriving DecidableEq, Inhabited

/-- Sign-in with the account of another service. -/
structure SocialConfig where
  /-- Sign-in with Google. -/
  google : Option GoogleConfig := none
  /-- Sign-in with Facebook. -/
  facebook : Option FacebookConfig := none
  deriving DecidableEq, Inhabited

/-- The whole configuration. -/
structure Config where
  /-- The database. -/
  database : DatabaseConfig := {}
  /-- The cache. -/
  cache : CacheConfig := {}
  /-- Tokens. -/
  jwt : JwtConfig := {}
  /-- One-time codes. -/
  otp : OtpConfig := {}
  /-- Passwords. -/
  security : SecurityConfig := {}
  /-- The delivery of messages. -/
  notifier : NotifierConfig := {}
  /-- Sign-in with the account of another service. -/
  social : SocialConfig := {}
  deriving DecidableEq, Inhabited

/-! ### Names -/

namespace CacheType

/-- The written name. -/
def name : CacheType → String
  | memory => "memory"
  | redis => "redis"

/-- The name in messages. -/
def title : CacheType → String
  | memory => "Memory"
  | redis => "Redis"

/-- The kind with a name. -/
def ofName? : String → Option CacheType
  | "memory" => some memory
  | "redis" => some redis
  | _ => none

end CacheType

namespace NotifierKind

/-- The written name. -/
def name : NotifierKind → String
  | log => "log"
  | webhook => "webhook"

/-- The kind with a name. -/
def ofName? : String → Option NotifierKind
  | "log" => some log
  | "webhook" => some webhook
  | _ => none

end NotifierKind

/-! ### Reading -/

namespace DatabaseConfig

/-- Reads the written form. -/
def ofJson? (j : Json) : Option DatabaseConfig := do
  let fs ← j.fieldsWithDefaults? ["url", "max_connections", "connect_timeout"]
  let d : DatabaseConfig := {}
  return {
    url := ← fs.getD "url" Json.string? d.url
    maxConnections := ← fs.getD "max_connections" (Json.unsigned? 32) d.maxConnections
    connectTimeout := ← fs.getD "connect_timeout" (Json.unsigned? 64) d.connectTimeout }

/-- The written form. -/
def toJson (c : DatabaseConfig) : Json :=
  .object
    [("url", .string c.url), ("max_connections", .nat c.maxConnections),
     ("connect_timeout", .nat c.connectTimeout)]

end DatabaseConfig

namespace RedisConfig

/-- Reads the written form. -/
def ofJson? (j : Json) : Option RedisConfig := do
  let fs ← j.fieldsWithDefaults? ["url", "pool_size", "connection_timeout"]
  let d : RedisConfig := {}
  return {
    url := ← fs.getD "url" Json.string? d.url
    poolSize := ← fs.getD "pool_size" (Json.unsigned? 32) d.poolSize
    connectionTimeout := ← fs.getD "connection_timeout" (Json.unsigned? 64) d.connectionTimeout }

/-- The written form. -/
def toJson (c : RedisConfig) : Json :=
  .object
    [("url", .string c.url), ("pool_size", .nat c.poolSize),
     ("connection_timeout", .nat c.connectionTimeout)]

end RedisConfig

namespace CacheConfig

/-- Reads the written form. -/
def ofJson? (j : Json) : Option CacheConfig := do
  let fs ← j.fieldsWithDefaults? ["cache_type", "memory_max_entries", "redis"]
  let d : CacheConfig := {}
  return {
    cacheType := ← fs.getD "cache_type" (Json.variant? CacheType.ofName?) d.cacheType
    memoryMaxEntries := ← fs.getD "memory_max_entries" (Json.unsigned? 64) d.memoryMaxEntries
    redis := ← fs.maybe "redis" RedisConfig.ofJson? }

/-- The written form; a server that is not configured is left out. -/
def toJson (c : CacheConfig) : Json :=
  .object
    ([("cache_type", .string c.cacheType.name), ("memory_max_entries", .nat c.memoryMaxEntries)]
      ++ (c.redis.map fun r => ("redis", r.toJson)).toList)

end CacheConfig

namespace JwtConfig

/-- Reads the written form. -/
def ofJson? (j : Json) : Option JwtConfig := do
  let fs ← j.fieldsWithDefaults?
    ["secret_key", "algorithm", "access_token_lifetime", "refresh_token_lifetime"]
  let d : JwtConfig := {}
  return {
    secretKey := ← fs.getD "secret_key" Json.string? d.secretKey
    algorithm := ← fs.getD "algorithm" Json.string? d.algorithm
    accessTokenLifetime :=
      ← fs.getD "access_token_lifetime" (Json.unsigned? 64) d.accessTokenLifetime
    refreshTokenLifetime :=
      ← fs.getD "refresh_token_lifetime" (Json.unsigned? 64) d.refreshTokenLifetime }

/-- The written form. -/
def toJson (c : JwtConfig) : Json :=
  .object
    [("secret_key", .string c.secretKey), ("algorithm", .string c.algorithm),
     ("access_token_lifetime", .nat c.accessTokenLifetime),
     ("refresh_token_lifetime", .nat c.refreshTokenLifetime)]

end JwtConfig

namespace OtpConfig

/-- Reads the written form. -/
def ofJson? (j : Json) : Option OtpConfig := do
  let fs ← j.fieldsWithDefaults?
    ["length", "window", "max_retries", "test_mode", "test_code", "test_window", "sms_template",
     "email_subject_verification", "email_subject_reset_password"]
  let d : OtpConfig := {}
  return {
    length := ← fs.getD "length" (Json.unsigned? 64) d.length
    window := ← fs.getD "window" (Json.unsigned? 64) d.window
    maxRetries := ← fs.getD "max_retries" (Json.signed? 64) d.maxRetries
    testMode := ← fs.getD "test_mode" Json.bool? d.testMode
    testCode := ← fs.getD "test_code" Json.string? d.testCode
    testWindow := ← fs.getD "test_window" (Json.unsigned? 64) d.testWindow
    smsTemplate := ← fs.getD "sms_template" Json.string? d.smsTemplate
    emailSubjectVerification :=
      ← fs.getD "email_subject_verification" Json.string? d.emailSubjectVerification
    emailSubjectResetPassword :=
      ← fs.getD "email_subject_reset_password" Json.string? d.emailSubjectResetPassword }

/-- The written form. -/
def toJson (c : OtpConfig) : Json :=
  .object
    [("length", .nat c.length), ("window", .nat c.window), ("max_retries", .int c.maxRetries),
     ("test_mode", .bool c.testMode), ("test_code", .string c.testCode),
     ("test_window", .nat c.testWindow), ("sms_template", .string c.smsTemplate),
     ("email_subject_verification", .string c.emailSubjectVerification),
     ("email_subject_reset_password", .string c.emailSubjectResetPassword)]

end OtpConfig

namespace SecurityConfig

/-- Reads the written form. -/
def ofJson? (j : Json) : Option SecurityConfig := do
  let fs ← j.fieldsWithDefaults? ["bcrypt_cost", "random_password_length"]
  let d : SecurityConfig := {}
  return {
    bcryptCost := ← fs.getD "bcrypt_cost" (Json.unsigned? 32) d.bcryptCost
    randomPasswordLength :=
      ← fs.getD "random_password_length" (Json.unsigned? 64) d.randomPasswordLength }

/-- The written form. -/
def toJson (c : SecurityConfig) : Json :=
  .object
    [("bcrypt_cost", .nat c.bcryptCost), ("random_password_length", .nat c.randomPasswordLength)]

end SecurityConfig

namespace NotifierConfig

/-- Reads the written form. -/
def ofJson? (j : Json) : Option NotifierConfig := do
  let fs ← j.fieldsWithDefaults? ["kind", "sms_url", "email_url", "sender_email", "timeout"]
  let d : NotifierConfig := {}
  return {
    kind := ← fs.getD "kind" (Json.variant? NotifierKind.ofName?) d.kind
    smsUrl := ← fs.maybe "sms_url" Json.string?
    emailUrl := ← fs.maybe "email_url" Json.string?
    senderEmail := ← fs.getD "sender_email" Json.string? d.senderEmail
    timeout := ← fs.getD "timeout" (Json.unsigned? 64) d.timeout }

/-- The written form. -/
def toJson (c : NotifierConfig) : Json :=
  .object
    [("kind", .string c.kind.name), ("sms_url", .stringOrNull c.smsUrl),
     ("email_url", .stringOrNull c.emailUrl), ("sender_email", .string c.senderEmail),
     ("timeout", .nat c.timeout)]

end NotifierConfig

namespace GoogleConfig

/-- Reads the written form. -/
def ofJson? (j : Json) : Option GoogleConfig := do
  let fs ← j.fieldsWithDefaults?
    ["client_id", "client_secret", "redirect_uri", "token_url", "userinfo_url", "tokeninfo_url"]
  let d : GoogleConfig := {}
  return {
    clientId := ← fs.getD "client_id" Json.string? d.clientId
    clientSecret := ← fs.getD "client_secret" Json.string? d.clientSecret
    redirectUri := ← fs.getD "redirect_uri" Json.string? d.redirectUri
    tokenUrl := ← fs.getD "token_url" Json.string? d.tokenUrl
    userinfoUrl := ← fs.getD "userinfo_url" Json.string? d.userinfoUrl
    tokeninfoUrl := ← fs.getD "tokeninfo_url" Json.string? d.tokeninfoUrl }

/-- The written form. -/
def toJson (c : GoogleConfig) : Json :=
  .object
    [("client_id", .string c.clientId), ("client_secret", .string c.clientSecret),
     ("redirect_uri", .string c.redirectUri), ("token_url", .string c.tokenUrl),
     ("userinfo_url", .string c.userinfoUrl), ("tokeninfo_url", .string c.tokeninfoUrl)]

end GoogleConfig

namespace FacebookConfig

/-- Reads the written form. -/
def ofJson? (j : Json) : Option FacebookConfig := do
  let fs ← j.fieldsWithDefaults? ["client_id", "client_secret", "redirect_uri", "graph_url"]
  let d : FacebookConfig := {}
  return {
    clientId := ← fs.getD "client_id" Json.string? d.clientId
    clientSecret := ← fs.getD "client_secret" Json.string? d.clientSecret
    redirectUri := ← fs.getD "redirect_uri" Json.string? d.redirectUri
    graphUrl := ← fs.getD "graph_url" Json.string? d.graphUrl }

/-- The written form. -/
def toJson (c : FacebookConfig) : Json :=
  .object
    [("client_id", .string c.clientId), ("client_secret", .string c.clientSecret),
     ("redirect_uri", .string c.redirectUri), ("graph_url", .string c.graphUrl)]

end FacebookConfig

namespace SocialConfig

/-- Reads the written form. -/
def ofJson? (j : Json) : Option SocialConfig := do
  let fs ← j.fieldsWithDefaults? ["google", "facebook"]
  return {
    google := ← fs.maybe "google" GoogleConfig.ofJson?
    facebook := ← fs.maybe "facebook" FacebookConfig.ofJson? }

/-- The written form. -/
def toJson (c : SocialConfig) : Json :=
  .object
    [("google", Json.orNull GoogleConfig.toJson c.google),
     ("facebook", Json.orNull FacebookConfig.toJson c.facebook)]

end SocialConfig

namespace Config

/-- Reads the written form. -/
def ofJson? (j : Json) : Option Config := do
  let fs ← j.fieldsWithDefaults?
    ["database", "cache", "jwt", "otp", "security", "notifier", "social"]
  return {
    database := ← fs.getD "database" DatabaseConfig.ofJson? {}
    cache := ← fs.getD "cache" CacheConfig.ofJson? {}
    jwt := ← fs.getD "jwt" JwtConfig.ofJson? {}
    otp := ← fs.getD "otp" OtpConfig.ofJson? {}
    security := ← fs.getD "security" SecurityConfig.ofJson? {}
    notifier := ← fs.getD "notifier" NotifierConfig.ofJson? {}
    social := ← fs.getD "social" SocialConfig.ofJson? {} }

/-- The written form. -/
def toJson (c : Config) : Json :=
  .object
    [("database", c.database.toJson), ("cache", c.cache.toJson), ("jwt", c.jwt.toJson),
     ("otp", c.otp.toJson), ("security", c.security.toJson), ("notifier", c.notifier.toJson),
     ("social", c.social.toJson)]

/-- The address of the Redis server, configured or not. -/
def redisUrl (c : Config) : String := (c.cache.redis.getD {}).url

end Config

end AuthCore
