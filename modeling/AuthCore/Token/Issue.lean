import AuthCore.Action
import AuthCore.Cache.Key
import AuthCore.Token.Access
import AuthCore.Token.Pair
import AuthCore.Token.Refresh

/-!
# Issuing and exchanging tokens

A refresh token is good as long as the cache holds an entry for it. Exchanging it takes the entry
away, so it works at most once; the new pair has the role that the user has by then.
-/

namespace AuthCore

/-- What issues tokens. -/
structure Tokens where
  /-- What signs and checks them. -/
  signer : Signer
  /-- The lifetime of an access token in seconds. -/
  accessLifetime : Nat
  /-- The lifetime of a refresh token in seconds. -/
  refreshLifetime : Nat

namespace Tokens

/-- What issues tokens under a configuration. -/
def ofConfig (c : JwtConfig) : Except ConfigFault Tokens :=
  (Signer.new c).map fun s => ⟨s, c.accessTokenLifetime, c.refreshTokenLifetime⟩

/-- The cache entry of a refresh token: the number of the account and its role. -/
def entry (user : Int) (role : Role) : String := Text.showInt user ++ "+" ++ role.name

/-- The number of the account in a cache entry. -/
def entryUser? (entry : String) : Option Int := do
  let (id, _) ← RefreshToken.splitOnce? '+' entry.toList
  Text.signed? 32 (String.ofList id)

/-- The text under which an entry is kept. -/
def entryText (entry : String) : String := (Json.string entry).text

/-- The key of a refresh token. -/
def key (token : String) : String := (CacheKey.refresh token).text

/-- An access token made at a moment. -/
def access (t : Tokens) (user : Int) (role : Role) (limited : Bool) (m : Moment) : String :=
  AccessToken.encode t.signer (.issue user role limited m.second t.accessLifetime)

/-- Issues a pair of tokens and notes the refresh token in the cache. -/
def issue (t : Tokens) (user : Int) (role : Role) (limited : Bool) : Action TokenPair := do
  let m ← read
  let refresh := RefreshToken.sign t.signer user m.nonce
  Action.cacheSet (key refresh) (entryText (entry user role)) (some (seconds t.refreshLifetime))
  Action.log (.tokenIssued user role limited)
  return .bearer (t.access user role limited m) refresh

/-- Issues an access token that may only change the password. -/
def issueLimited (t : Tokens) (user : Int) (role : Role) : Action String :=
  return t.access user role true (← read)

/-- The claims of an access token that is accepted now. -/
def verify (t : Tokens) (token : String) : Action AccessClaims := do
  let m ← read
  Action.ofAnswer ((AccessToken.verify t.signer m.second token).mapError .auth)

/-- Exchanges a refresh token for a new pair. -/
def refresh (t : Tokens) (token : String) : Action TokenPair := do
  let key := key token
  let entry ← Action.cached fun now => Cache.get Json.string? key now
  let entry ← Action.orReject .refreshTokenExpired entry
  let id ← Action.ofAnswer ((RefreshToken.verify t.signer token).mapError .auth)
  if entryUser? entry ≠ some id then
    Action.log (.refreshMismatch id)
    Action.reject .invalidTokenProvided
  let user ← Action.query (·.findById id)
  let user ← Action.orReject .userNotFound user
  Action.require (!user.isForceLogin) .userForceLogin
  let taken ← Action.cached fun now => Cache.compareAndDelete key (entryText entry) now
  Action.require taken .refreshTokenExpired
  let pair ← t.issue user.id user.role false
  Action.log (.tokenRefreshed user.id)
  return pair

end Tokens

end AuthCore
