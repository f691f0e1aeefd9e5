/-!
# Cache keys

Where the cache keeps refresh tokens and one-time codes. The two kinds of keys have different
beginnings, so they never meet.
-/

namespace AuthCore

/-- What an entry of the cache is about. -/
inductive CacheKey where
  /-- The one-time code of a username. -/
  | otp (username : String)
  /-- A refresh token. -/
  | refresh (token : String)
  deriving DecidableEq, Repr

namespace CacheKey

/-- The name of a kind of key. -/
def kindName : CacheKey → String
  | otp _ => "otp"
  | refresh _ => "refresh"

/-- The text of a key. -/
def text : CacheKey → String
  | otp username => "auth:otp:" ++ username
  | refresh token => "auth:refresh:" ++ token

end CacheKey

end AuthCore
