import AuthCore.Cache.Basic
import AuthCore.Http.Exchange
import AuthCore.Log.Event
import AuthCore.Store.Basic

/-!
# Actions

What an operation works on, as a value: the cache, the store, the delivery of messages, the network
and the log. An action reads the clock once, draws at most one random value of each kind, and
answers with a value or an error; what it has changed before an error stays changed.

## Main definitions

* `World`: what operations change.
* `Moment`: what an operation finds outside: the time and its random draws.
* `Action α`: an operation that answers with an `α`.
-/

namespace AuthCore

/-- A message handed over for delivery. -/
structure Delivery where
  /-- Whom it is for. -/
  recipient : String
  /-- The message. -/
  message : Message
  deriving DecidableEq, Repr

/-- How messages are delivered. -/
inductive Notifier where
  /-- They are put into the outbox; then the delivery may be said to have failed. -/
  | outbox (failure : Option Error)
  /-- They are only logged. -/
  | log
  /-- They are posted to a gateway. -/
  | webhook (c : NotifierConfig)

/-- What operations work on. -/
structure World where
  /-- The cache. -/
  cache : Cache
  /-- The store. -/
  store : Store
  /-- How messages are delivered. -/
  notifier : Notifier
  /-- The messages in the outbox. -/
  outbox : List Delivery
  /-- The network. -/
  network : Network
  /-- What was logged. -/
  log : List Event

/-- What one operation finds outside: the time and its random draws. -/
structure Moment where
  /-- Nanoseconds since the start of 1970. -/
  now : Nat
  /-- The nonce of a refresh token. -/
  nonce : String
  /-- A one-time code of a number of digits. -/
  code : Nat → String
  /-- The salt of a password hash. -/
  salt : List UInt8
  /-- A password of a number of characters. -/
  password : Nat → String

/-- An operation. -/
abbrev Action := ReaderT Moment (ExceptT Error (StateM World))

/-- A number of seconds in nanoseconds. -/
def seconds (n : Nat) : Nat := n * 1000000000

namespace Moment

/-- Whole seconds since the start of 1970. -/
def second (m : Moment) : Int := (m.now / 1000000000 : Nat)

/-- The point in time. -/
def timestamp (m : Moment) : Timestamp := .ofNanos m.now

end Moment

namespace Action

/-- Runs an operation. -/
def perform (a : Action α) (m : Moment) (w : World) : Answer α × World :=
  (a.run m).run.run w

/-- The world to begin with. -/
def worldOf (cache : Cache) (store : Store) (notifier : Notifier) : World :=
  ⟨cache, store, notifier, [], .offline, []⟩

/-- Logs an event. -/
def log (e : Event) : Action Unit := modify fun w => { w with log := w.log ++ [e] }

/-- Fails with a domain error. -/
def reject (e : AuthError) : Action α := throw (.auth e)

/-- Fails with a domain error unless a condition holds. -/
def require (condition : Bool) (e : AuthError) : Action Unit :=
  if condition then pure () else reject e

/-- An answer that was found without looking at the world. -/
def ofAnswer (r : Answer α) : Action α := fun _ w => (r, w)

/-- The answer of an operation, which itself does not fail. -/
def attempt (a : Action α) : Action (Answer α) := fun m w =>
  let (r, w) := a.perform m w
  (.ok r, w)

/-- A value that has to be there. -/
def orReject (e : AuthError) : Option α → Action α
  | some a => pure a
  | none => reject e

/-- Asks the store. -/
def query (f : Store → Answer α) : Action α := fun _ w => (f w.store, w)

/-- Changes the store. -/
def change (f : Store → Answer α × Store) : Action α := fun _ w =>
  let (r, s) := f w.store
  (r, { w with store := s })

/-- Uses the cache. -/
def cached (f : Nat → Cache → Except CacheFault α × Cache) : Action α := fun m w =>
  let (r, c) := f m.now w.cache
  (r.mapError .cache, { w with cache := c })

/-- What is logged about a write to the cache: that a memory cache is full, or that a server took
the value. -/
def writeEvents (key : String) (before : Cache) (isSet : Bool) :
    Except CacheFault α → List Event
  | .error (.full capacity) => [.memoryCacheFull capacity key]
  | .error _ => []
  | .ok _ =>
    match before with
    | .memory _ => []
    | .remote _ => if isSet then [.cacheWritten key] else []

/-- Puts a text into the cache. -/
def cacheSet (key text : String) (ttl : Option Nat) : Action Unit := fun m w =>
  let (r, c) := w.cache.set key text ttl m.now
  (r.mapError .cache, { w with cache := c, log := w.log ++ writeEvents key w.cache true r })

/-- Puts fields into the cache unless the key is there; the answer is whether it was not. -/
def cacheCreate (key : String) (fields : List (String × String)) (ttl : Nat) : Action Bool :=
  fun m w =>
    let (r, c) := w.cache.createHash key fields ttl m.now
    (r.mapError .cache, { w with cache := c, log := w.log ++ writeEvents key w.cache false r })

/-- Sends a request; the answer is `none` if nobody was reached. -/
def send (r : Request) : Action (Option Response) := fun _ w =>
  let (a, n) := w.network.send r
  (.ok a, { w with network := n })

end Action

end AuthCore
