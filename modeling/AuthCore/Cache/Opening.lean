import AuthCore.Cache.Address
import AuthCore.Cache.Basic
import AuthCore.Config.Basic
import AuthCore.Startup.Basic

/-!
# Opening a cache

The cache that a configuration asks for. Attempts to reach a server are repeated for some seconds,
so a shorter time limit runs out first; a limit of zero leaves no time even for a server that
answers.
-/

namespace AuthCore.Cache

/-- For how many seconds attempts to reach a server are repeated. -/
def patience : Nat := 7

/-- Connects to a Redis server. -/
def connect (c : RedisConfig) : Startup Cache := do
  Startup.log .redisConnecting
  if !RedisAddress.isServer c.url then throw (.cache .client)
  match ← Startup.server? with
  | some r =>
    if c.connectionTimeout = 0 then throw (.cache (.connectTimeout 0))
    Startup.log .redisConnected
    return .remote r
  | none =>
    throw (.cache (if c.connectionTimeout < patience then .connectTimeout c.connectionTimeout
      else .connect))

/-- Opens the cache that a configuration asks for. -/
def forConfig (c : CacheConfig) : Startup Cache :=
  match c.cacheType with
  | .memory => do
    Startup.log (.memoryCacheUsed c.memoryMaxEntries)
    return .memory (.new c.memoryMaxEntries)
  | .redis => connect (c.redis.getD {})

end AuthCore.Cache
