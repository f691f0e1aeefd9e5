import AuthCore.Cache.Remote
import AuthCore.Json.Printer
import AuthCore.Json.Reader
import AuthCore.Json.Decode

/-!
# Caches

A cache in memory or on a Redis server. Values are kept as JSON texts.
-/

namespace AuthCore

/-- A cache. -/
inductive Cache where
  | memory (c : MemoryCache)
  | remote (c : RemoteCache)

namespace Cache

/-- An answer and the memory cache behind it. -/
def ofMemory (r : α × MemoryCache) : α × Cache := (r.1, .memory r.2)

/-- An answer that cannot fail and the memory cache behind it. -/
def ofSure (r : α × MemoryCache) : Except CacheFault α × Cache := (.ok r.1, .memory r.2)

/-- An answer and the connection behind it. -/
def ofRemote (r : α × RemoteCache) : α × Cache := (r.1, .remote r.2)

/-- The name of the kind of cache. -/
def kindName : Cache → String
  | memory _ => "memory"
  | remote _ => "redis"

/-- Puts a text at a key. -/
def set (key text : String) (ttl : Option Nat) (now : Nat) :
    Cache → Except CacheFault Unit × Cache
  | memory c => ofMemory (c.set now key text ttl)
  | remote c => ofRemote (c.set key text ttl)

/-- The text at a key. -/
def getText (key : String) (now : Nat) : Cache → Except CacheFault (Option String) × Cache
  | memory c => ofMemory (c.get now key)
  | remote c => ofRemote (c.get key)

/-- Reads the text of a value. -/
def parse (f : Json → Option α) : Option String → Except CacheFault (Option α)
  | none => .ok none
  | some text =>
    match (Json.ofText? text).bind f with
    | some a => .ok (some a)
    | none => .error .unreadable

/-- The value at a key. -/
def get (f : Json → Option α) (key : String) (now : Nat) (c : Cache) :
    Except CacheFault (Option α) × Cache :=
  let (r, c) := c.getText key now
  (r.bind (parse f), c)

/-- Takes a key away; the answer is whether it was there. -/
def delete (key : String) (now : Nat) : Cache → Except CacheFault Bool × Cache
  | memory c => ofSure (c.delete now key)
  | remote c => ofRemote (c.delete key)

/-- Whether a key is there. -/
def contains (key : String) (now : Nat) : Cache → Except CacheFault Bool × Cache
  | memory c => (.ok (c.contains now key), .memory c)
  | remote c => ofRemote (c.contains key)

/-- Makes a key expire after a while; the answer is whether there is one. -/
def expire (key : String) (ttl : Nat) (now : Nat) : Cache → Except CacheFault Bool × Cache
  | memory c => ofSure (c.expire now key ttl)
  | remote c => ofRemote (c.expire key ttl)

/-- Puts fields at a key that is not there; the answer is whether it was not. -/
def createHash (key : String) (fields : List (String × String)) (ttl : Nat) (now : Nat) :
    Cache → Except CacheFault Bool × Cache
  | memory c => ofMemory (c.createHash now key fields ttl)
  | remote c => ofRemote (c.createHash key fields ttl)

/-- The fields at a key. -/
def getHash (key : String) (now : Nat) :
    Cache → Except CacheFault (Option (OrderedMap String String)) × Cache
  | memory c => ofMemory (c.getHash now key)
  | remote c => ofRemote (c.getHash key)

/-- Adds to the number in a field of a key that is there. -/
def increment (key field : String) (delta : Int) (now : Nat) :
    Cache → Except CacheFault (Option Int) × Cache
  | memory c => ofMemory (c.increment now key field delta)
  | remote c => ofRemote (c.increment key field delta)

/-- Compares a guess with a field. -/
def check (key field guess counter : String) (limit : Int) (now : Nat) :
    Cache → Except CacheFault HashCheck × Cache
  | memory c => ofMemory (c.check now key field guess counter limit)
  | remote c => ofRemote (c.check key field guess counter limit)

/-- Takes a key away if it holds a text; the answer is whether it did. -/
def compareAndDelete (key text : String) (now : Nat) : Cache → Except CacheFault Bool × Cache
  | memory c => ofSure (c.compareAndDelete now key text)
  | remote c => ofRemote (c.compareAndDelete key text)

/-- Asks for a sign of life; memory always gives one. -/
def ping : Cache → Except CacheFault Unit × Cache
  | memory c => (.ok (), .memory c)
  | remote c => ofRemote c.ping

/-- The text of a map whose keys are not texts: only an empty one has a written form. -/
def keyedText (entries : List (List Int × String)) : Except CacheFault String :=
  if entries.isEmpty then .ok "\x7b\x7d" else .error .unwritable

end Cache

end AuthCore
