import AuthCore.Config.Basic
import AuthCore.Text.Blank

/-!
# The rules of a configuration

A configuration is accepted if it keeps every rule of `Config.rules`; otherwise the first rule that
it breaks is reported.
-/

namespace AuthCore.Config

/-- What has to hold, and what is said when it does not. -/
structure Rule where
  /-- Whether the rule is kept. -/
  holds : Bool
  /-- What is said when it is broken. -/
  complaint : String

/-- The rules, in the order in which they are checked. -/
def rules (c : Config) : List Rule :=
  [⟨c.database.url ≠ "", "database.url must not be empty"⟩,
   ⟨c.database.maxConnections ≠ 0, "database.max_connections must be greater than 0"⟩,
   ⟨Text.trim c.jwt.secretKey ≠ "", "jwt.secret_key must be configured"⟩,
   ⟨["HS256", "HS384", "HS512"].contains c.jwt.algorithm,
    "unsupported jwt.algorithm: " ++ c.jwt.algorithm⟩,
   ⟨c.jwt.accessTokenLifetime ≠ 0 && c.jwt.refreshTokenLifetime ≠ 0,
    "token lifetimes must be greater than 0"⟩,
   ⟨1 ≤ c.otp.length && c.otp.length ≤ 10,
    "otp.length must be within 1..=10, got " ++ Text.showNat c.otp.length⟩,
   ⟨c.otp.window ≠ 0 && c.otp.testWindow ≠ 0, "otp windows must be greater than 0"⟩,
   ⟨0 < c.otp.maxRetries, "otp.max_retries must be greater than 0"⟩,
   ⟨!(c.otp.testMode && c.otp.testCode = ""),
    "otp.test_code must be set when otp.test_mode is enabled"⟩,
   ⟨Password.costAllowed c.security.bcryptCost,
    "security.bcrypt_cost must be within 4..=31, got " ++ Text.showNat c.security.bcryptCost⟩,
   ⟨!(c.cache.cacheType = .memory && c.cache.memoryMaxEntries = 0),
    "cache.memory_max_entries must be greater than 0"⟩,
   ⟨!(c.notifier.kind = .webhook && c.notifier.smsUrl.isNone && c.notifier.emailUrl.isNone),
    "webhook notifier needs sms_url or email_url"⟩]

/-- The complaint of the first broken rule. -/
def violation? (c : Config) : Option String :=
  (c.rules.find? fun r => !r.holds).map (·.complaint)

end AuthCore.Config
