import AuthCore.Cache.Memory
import AuthCore.Digest.Sha1
import AuthCore.Text.Base64

/-!
# The Redis cache

A cache on a Redis server. What changes more than one thing at once is done by a script on the
server, which is called by the digest of its text and sent in full only when the server does not
know it. The server itself is not described: a peer answers each command with the next of its
replies.
-/

namespace AuthCore

/-- A reply of a Redis server. -/
inductive Reply where
  | integer (n : Int)
  | bulk (text : String)
  | nil
  | array (items : List Reply)
  | status (text : String)
  | error (text : String)
  deriving Repr, Inhabited

namespace Reply

/-- A reply that stands for a text. -/
def text? : Reply → Option String
  | bulk s | status s => some s
  | integer n => some (Text.showInt n)
  | _ => none

/-- A reply that stands for a number of 64 bits. -/
def integer? : Reply → Option Int
  | integer n => some n
  | bulk s | status s => Text.signed? 64 s
  | _ => none

/-- A reply that stands for a truth value. -/
def bool? : Reply → Option Bool
  | nil => some false
  | integer n => some (n != 0)
  | bulk s => if s = "1" then some true else if s = "0" then some false else none
  | status s =>
    if s = "1" || s = "OK" then some true else if s = "0" then some false else none
  | _ => none

/-- A list of alternating names and values. -/
def pairs? : List Reply → Option (List (String × String))
  | [] => some []
  | k :: v :: rest => do
    let k ← text? k
    let v ← text? v
    let rest ← pairs? rest
    some ((k, v) :: rest)
  | [_] => none

/-- A reply that stands for named values. -/
def fields? : Reply → Option (List (String × String))
  | nil => some []
  | array items => pairs? items
  | _ => none

/-- The error reply of a server that does not know a script: its first word says so. -/
def isUnknownScript : Reply → Bool
  | error s => s.toList.takeWhile (· != ' ') == "NOSCRIPT".toList
  | _ => false

/-- Any reply but an error. -/
def isFine : Reply → Bool
  | error _ => false
  | _ => true

end Reply

/-- A script that a server runs in one step. -/
structure Script where
  /-- The text of the script. -/
  source : String

namespace Script

/-- The name under which a server knows a script. -/
def name (s : Script) : String := Digest.Sha1.hex (Text.utf8 s.source)

/-- Writes fields to a key that does not exist. -/
def createHash : Script where
  source := "
if redis.call('EXISTS', KEYS[1]) == 1 then
    return 0
end
redis.call('HSET', KEYS[1], unpack(ARGV, 2))
redis.call('EXPIRE', KEYS[1], ARGV[1])
return 1
"

/-- Adds to a field of a key that exists. -/
def increment : Script where
  source := "
if redis.call('EXISTS', KEYS[1]) == 0 then
    return false
end
return redis.call('HINCRBY', KEYS[1], ARGV[1], ARGV[2])
"

/-- Compares a guess with a field: -1 for no key, -2 for too many wrong guesses, 0 for a right one,
and else the number of wrong ones. -/
def check : Script where
  source := "
if redis.call('EXISTS', KEYS[1]) == 0 then
    return -1
end
local count = tonumber(redis.call('HGET', KEYS[1], ARGV[2]))
if count == nil or count >= tonumber(ARGV[4]) then
    return -2
end
if redis.call('HGET', KEYS[1], ARGV[1]) == ARGV[3] then
    redis.call('DEL', KEYS[1])
    return 0
end
return redis.call('HINCRBY', KEYS[1], ARGV[2], 1)
"

/-- Takes a key away if it holds a text. -/
def compareAndDelete : Script where
  source := "
if redis.call('GET', KEYS[1]) == ARGV[1] then
    return redis.call('DEL', KEYS[1])
end
return 0
"

end Script

/-- The connection to a server: the replies it is going to give, and the commands that were sent. -/
structure RemoteCache where
  /-- The replies to come. -/
  replies : List Reply
  /-- The commands sent so far, the last one first. -/
  sent : List (List String)

namespace RemoteCache

/-- A fresh connection. -/
def idle : RemoteCache := ⟨[], []⟩

/-- The reply to a command for which none is left. -/
def noReply : Reply := .error "ERR unscripted"

/-- Sends a command and takes the next reply. -/
def exec (command : List String) (c : RemoteCache) : Reply × RemoteCache :=
  match c.replies with
  | [] => (noReply, ⟨[], command :: c.sent⟩)
  | r :: rs => (r, ⟨rs, command :: c.sent⟩)

/-- The command that calls a script on one key. -/
def call (s : Script) (key : String) (args : List String) : List String :=
  ["EVALSHA", s.name, "1", key] ++ args

/-- Runs a script on one key; a server that does not know the script is sent its text, and the call
is made again. -/
def run (s : Script) (key : String) (args : List String) (c : RemoteCache) :
    Reply × RemoteCache :=
  let (r, c) := c.exec (call s key args)
  if r.isUnknownScript then
    let (loaded, c) := c.exec ["SCRIPT", "LOAD", s.source]
    if loaded.isFine then c.exec (call s key args) else (loaded, c)
  else (r, c)

/-- Nanoseconds in a second. -/
def second : Nat := 1000000000

/-- Whole seconds of a time to live, and at least one. -/
def seconds (ttl : Nat) : Nat := max (ttl / second) 1

/-- What a reply stands for, or a fault. -/
def read (f : Reply → Option α) (fault : CacheFault) (r : Reply × RemoteCache) :
    Except CacheFault α × RemoteCache :=
  match f r.1 with
  | some a => (.ok a, r.2)
  | none => (.error fault, r.2)

/-- Puts a text at a key. -/
def set (key text : String) (ttl : Option Nat) (c : RemoteCache) :
    Except CacheFault Unit × RemoteCache :=
  let command := match ttl with
    | some ttl => ["SETEX", key, Text.showNat (seconds ttl), text]
    | none => ["SET", key, text]
  read (fun r => if r.isFine then some () else none) (.set key) (c.exec command)

/-- The text at a key. -/
def get (key : String) (c : RemoteCache) : Except CacheFault (Option String) × RemoteCache :=
  read (fun r => match r with
    | .nil => some none
    | r => r.text?.map some) (.get key) (c.exec ["GET", key])

/-- Takes a key away; the answer is whether it was there. -/
def delete (key : String) (c : RemoteCache) : Except CacheFault Bool × RemoteCache :=
  read (fun r => r.integer?.map fun n => decide (0 < n)) (.delete key) (c.exec ["DEL", key])

/-- Whether a key is there. -/
def contains (key : String) (c : RemoteCache) : Except CacheFault Bool × RemoteCache :=
  read Reply.bool? .exists (c.exec ["EXISTS", key])

/-- The greatest number of seconds that a key may be told to last. -/
def longest : Nat := 2 ^ 63 - 1

/-- Makes a key expire after a while; the answer is whether there is one. -/
def expire (key : String) (ttl : Nat) (c : RemoteCache) : Except CacheFault Bool × RemoteCache :=
  read Reply.bool? .expire
    (c.exec ["EXPIRE", key, Text.showNat (min (seconds ttl) longest)])

/-- Puts fields at a key that is not there; the answer is whether it was not. -/
def createHash (key : String) (fields : List (String × String)) (ttl : Nat) (c : RemoteCache) :
    Except CacheFault Bool × RemoteCache :=
  if fields.isEmpty then (.error .emptyHash, c)
  else
    let args := Text.showNat (seconds ttl) :: fields.flatMap fun f => [f.1, f.2]
    read (fun r => r.integer?.map (· == 1)) (.createHash key) (c.run .createHash key args)

/-- The fields at a key; no fields are no key. -/
def getHash (key : String) (c : RemoteCache) :
    Except CacheFault (Option (OrderedMap String String)) × RemoteCache :=
  read (fun r => r.fields?.map fun fs => if fs.isEmpty then none else some (.ofList fs))
    (.readHash key) (c.exec ["HGETALL", key])

/-- Adds to the number in a field of a key that is there. -/
def increment (key field : String) (delta : Int) (c : RemoteCache) :
    Except CacheFault (Option Int) × RemoteCache :=
  read (fun r => match r with
    | .nil => some none
    | r => r.integer?.map some) (.increment key)
    (c.run .increment key [field, Text.showInt delta])

/-- What the number that a check answers stands for. -/
def outcome (n : Int) : HashCheck :=
  if n = -1 then .missing
  else if n = 0 then .matched
  else if 0 < n then .mismatch n
  else .locked

/-- Compares a guess with a field. -/
def check (key field guess counter : String) (limit : Int) (c : RemoteCache) :
    Except CacheFault HashCheck × RemoteCache :=
  read (fun r => r.integer?.map outcome) (.check key)
    (c.run .check key [field, counter, guess, Text.showInt limit])

/-- Takes a key away if it holds a text; the answer is whether it did. -/
def compareAndDelete (key text : String) (c : RemoteCache) :
    Except CacheFault Bool × RemoteCache :=
  read (fun r => r.integer?.map fun n => decide (0 < n)) (.compare key)
    (c.run .compareAndDelete key [text])

/-- Asks the server for a sign of life. -/
def ping (c : RemoteCache) : Except CacheFault Unit × RemoteCache :=
  read (fun r => r.text?.map fun _ => ()) .ping (c.exec ["PING"])

end RemoteCache

end AuthCore
