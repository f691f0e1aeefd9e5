import AuthCore.Error.Fault
import AuthCore.OrderedMap

/-!
# The memory cache

A bounded map with expiring entries, kept in memory. An entry is live until the instant at which it
expires; what has expired may lie around until a write needs its place, but no answer tells it from
what is not there. A full cache refuses new keys and never drops a live entry.

Every operation takes the time, in nanoseconds, and answers with the cache as it is afterwards.
-/

namespace AuthCore

/-- What an entry holds. -/
inductive CacheValue where
  /-- A text. -/
  | plain (text : String)
  /-- Named fields. -/
  | hash (fields : OrderedMap String String)
  deriving DecidableEq

/-- An entry and when it expires, if ever. -/
structure CacheEntry where
  /-- What the entry holds. -/
  value : CacheValue
  /-- The first instant at which the entry is gone. -/
  expiresAt : Option Nat
  deriving DecidableEq

/-- Whether an entry is there at a time. -/
def CacheEntry.isLive (now : Nat) (e : CacheEntry) : Bool :=
  match e.expiresAt with
  | some t => now < t
  | none => true

/-- What became of a guess at a field. -/
inductive HashCheck where
  /-- There is no entry. -/
  | missing
  /-- Too many guesses were wrong; the guess was not looked at. -/
  | locked
  /-- The guess was wrong; so many were by now. -/
  | mismatch (count : Int)
  /-- The guess was right, and the entry was taken away. -/
  | matched
  deriving DecidableEq, Repr

/-- A map with expiring entries that holds at most `capacity` of them. -/
structure MemoryCache where
  /-- The entries, live or not. -/
  entries : OrderedMap String CacheEntry
  /-- How many entries there may be. -/
  capacity : Nat
  /-- At least one entry fits. -/
  capacity_pos : 0 < capacity

namespace MemoryCache

/-- An empty cache for a number of entries, and at least one. -/
def new (capacity : Nat) : MemoryCache where
  entries := .empty
  capacity := max capacity 1
  capacity_pos := by omega

/-- The number of entries, live or not. -/
def size (c : MemoryCache) : Nat := c.entries.size

/-- The live entry at a key. -/
def live? (now : Nat) (key : String) (c : MemoryCache) : Option CacheEntry :=
  (c.entries.get? key).filter (·.isLive now)

/-- The cache with an entry put at a key. -/
def put (key : String) (e : CacheEntry) (c : MemoryCache) : MemoryCache :=
  { c with entries := c.entries.insert key e }

/-- The cache without a key. -/
def drop (key : String) (c : MemoryCache) : MemoryCache :=
  { c with entries := c.entries.erase key }

/-- The cache without what has expired. -/
def purge (now : Nat) (c : MemoryCache) : MemoryCache :=
  { c with entries := c.entries.filter fun _ e => e.isLive now }

/-- The cache without a key that has expired. -/
def dropExpired (now : Nat) (key : String) (c : MemoryCache) : MemoryCache :=
  match c.entries.get? key with
  | some e => if e.isLive now then c else c.drop key
  | none => c

/-- The cache with what has expired thrown out if a new key needs the place. -/
def makeRoom (now : Nat) (key : String) (c : MemoryCache) : MemoryCache :=
  if c.size < c.capacity || c.entries.contains key then c else c.purge now

/-- Whether a key may be written. -/
def hasRoom (key : String) (c : MemoryCache) : Bool :=
  c.size < c.capacity || c.entries.contains key

/-- Puts a text at a key. -/
def set (now : Nat) (key text : String) (ttl : Option Nat) (c : MemoryCache) :
    Except CacheFault Unit × MemoryCache :=
  let c := c.makeRoom now key
  if c.hasRoom key then (.ok (), c.put key ⟨.plain text, ttl.map (now + ·)⟩)
  else (.error (.full c.capacity), c)

/-- The text at a key. -/
def get (now : Nat) (key : String) (c : MemoryCache) :
    Except CacheFault (Option String) × MemoryCache :=
  match c.live? now key with
  | some ⟨.plain text, _⟩ => (.ok (some text), c)
  | some ⟨.hash _, _⟩ => (.error (.kindMismatch key), c)
  | none => (.ok none, c.dropExpired now key)

/-- Takes a key away; the answer is whether it was live. -/
def delete (now : Nat) (key : String) (c : MemoryCache) : Bool × MemoryCache :=
  ((c.live? now key).isSome, c.drop key)

/-- Whether a key is live. -/
def contains (now : Nat) (key : String) (c : MemoryCache) : Bool := (c.live? now key).isSome

/-- Makes a live key expire after a while; the answer is whether there is one. -/
def expire (now : Nat) (key : String) (ttl : Nat) (c : MemoryCache) : Bool × MemoryCache :=
  match c.live? now key with
  | some e => (true, c.put key { e with expiresAt := some (now + ttl) })
  | none => (false, c)

/-- Puts fields at a key that is not live; the answer is whether it was not. -/
def createHash (now : Nat) (key : String) (fields : List (String × String)) (ttl : Nat)
    (c : MemoryCache) : Except CacheFault Bool × MemoryCache :=
  let c := c.makeRoom now key
  if c.hasRoom key then
    if c.contains now key then (.ok false, c)
    else (.ok true, c.put key ⟨.hash (.ofList fields), some (now + ttl)⟩)
  else (.error (.full c.capacity), c)

/-- The fields at a key. -/
def getHash (now : Nat) (key : String) (c : MemoryCache) :
    Except CacheFault (Option (OrderedMap String String)) × MemoryCache :=
  match c.live? now key with
  | some ⟨.hash fields, _⟩ => (.ok (some fields), c)
  | some ⟨.plain _, _⟩ => (.error (.kindMismatch key), c)
  | none => (.ok none, c.dropExpired now key)

/-- The number in a field; a missing field counts as zero. -/
def fieldNumber (fields : OrderedMap String String) (field : String) : Except CacheFault Int :=
  match fields.get? field with
  | none => .ok 0
  | some text =>
    match Text.signed? 64 text with
    | some n => .ok n
    | none => .error (.notInteger field)

/-- Adds to the number in a field of a live key. -/
def increment (now : Nat) (key field : String) (delta : Int) (c : MemoryCache) :
    Except CacheFault (Option Int) × MemoryCache :=
  match c.live? now key with
  | none => (.ok none, c)
  | some ⟨.plain _, _⟩ => (.error (.kindMismatch key), c)
  | some ⟨.hash fields, expiry⟩ =>
    match fieldNumber fields field with
    | .error f => (.error f, c)
    | .ok n =>
      let next := n + delta
      (.ok (some next), c.put key ⟨.hash (fields.insert field (Text.showInt next)), expiry⟩)

/-- The number of wrong guesses so far, if it is below a limit. -/
def guesses? (fields : OrderedMap String String) (counter : String) (limit : Int) : Option Int :=
  ((fields.get? counter).bind (Text.signed? 64)).filter fun n => decide (n < limit)

/-- Compares a guess with a field. A right guess takes the key away, a wrong one is counted, and
from a limit of wrong ones on no guess is compared. -/
def check (now : Nat) (key field guess counter : String) (limit : Int) (c : MemoryCache) :
    Except CacheFault HashCheck × MemoryCache :=
  match c.live? now key with
  | none => (.ok .missing, c.dropExpired now key)
  | some ⟨.plain _, _⟩ => (.error (.kindMismatch key), c)
  | some ⟨.hash fields, expiry⟩ =>
    match guesses? fields counter limit with
    | none => (.ok .locked, c)
    | some n =>
      if fields.get? field = some guess then (.ok .matched, c.drop key)
      else
        (.ok (.mismatch (n + 1)),
          c.put key ⟨.hash (fields.insert counter (Text.showInt (n + 1))), expiry⟩)

/-- Takes a key away if it holds a text; the answer is whether it did. -/
def compareAndDelete (now : Nat) (key text : String) (c : MemoryCache) : Bool × MemoryCache :=
  if (c.live? now key).map (·.value) = some (.plain text) then (true, c.drop key) else (false, c)

end MemoryCache

end AuthCore
