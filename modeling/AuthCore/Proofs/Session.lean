import AuthCore.Proofs.Cache.TtlMap
import AuthCore.Proofs.Run
import AuthCore.Proofs.Store.Twins
import AuthCore.Store.Upkeep

/-!
# Sessions

A session is more than a run of operations: between them the cache and the store may be called
directly, the database may be brought up to date, and contents may be put into the store past its
own operations. Every step reads the clock once and has random draws of its own; if the cache is on
a server, the replies of the server to the commands of the step belong to the step as well.

## The model

* `Call`: what a step does; `Call.perform` does it.
* `SessionStep`: a call, when it happens, what it draws, and what a server replies to it.
* `Accounts.afterSession`: the world after some steps.
-/

namespace AuthCore

/-- A call of a cache as part of an operation: writes are logged. -/
def CacheCall.act {α : Type} : CacheCall α → Action (CacheAnswer α)
  | set key text ttl => (fun _ => .done) <$> Action.cacheSet key text ttl
  | createHash key fields ttl => .flag <$> Action.cacheCreate key fields ttl
  | c => Action.cached fun now cache => c.perform now cache

/-- Contents that are put into a store past its operations. -/
inductive StoreEdit where
  /-- A user of a store in memory, in the place of one with the same number. -/
  | user (u : User)
  /-- A row of the table of users. -/
  | userRow (r : UserRow)
  /-- A row of the table of groups. -/
  | groupRow (r : GroupRow)
  /-- A row of the rule catalog. -/
  | entityRow (r : EntityRow)
  /-- Whether the database takes no writes. -/
  | readOnly (b : Bool)

/-- The store with contents put into it; rows that the database refuses are left out. -/
def StoreEdit.perform (s : Store) : StoreEdit → Store
  | user u =>
    match s with
    | .memory m => .memory (m.insertUser u)
    | .database _ => s
  | userRow r => edit fun db => (db.insertUserRow r).2
  | groupRow r => edit fun db => (db.insertGroupRow r).2
  | entityRow r => edit fun db => (db.insertEntityRow r).2
  | readOnly b => edit fun db => { db with readOnly := b }
where
  /-- Changes the database, if there is one. -/
  edit (f : Database → Database) : Store :=
    match s with
    | .memory _ => s
    | .database db => .database (f db)

/-- What a step of a session does. -/
inductive Call where
  /-- An operation of the services. -/
  | operation (op : Operation)
  /-- A call of the cache. -/
  | cache (c : CacheCall Json)
  /-- Asking the cache for a sign of life. -/
  | ping
  /-- A call of the store. -/
  | store (c : StoreCall)
  /-- Checking permissions against the rule catalog. -/
  | validate (ps : List Permission)
  /-- Applying the pending migrations. -/
  | migrate
  /-- Taking migrations back. -/
  | migrateDown (steps : Option Nat)
  /-- Counting the pending migrations. -/
  | countPending
  /-- Putting contents into the store. -/
  | edit (e : StoreEdit)

/-- Performs a call; what it answers does not matter here. -/
def Call.perform (a : Accounts) : Call → Action Unit
  | operation op => (fun _ => ()) <$> op.perform a
  | cache c => (fun _ => ()) <$> c.act
  | ping => Action.cached fun _ => Cache.ping
  | store c => (fun _ => ()) <$> Action.change fun s => c.perform s
  | validate ps => Permissions.validate ps
  | migrate => Upkeep.migrate
  | migrateDown steps => Upkeep.migrateDown steps
  | countPending => (fun _ => ()) <$> Upkeep.pending
  | edit e => Action.change fun s => (.ok (), e.perform s)

theorem Upkeep.perform_onDatabase {α : Type} (f : Database → Except Refusal α × Database)
    (otherwise : α) {m : Moment} {w : World} : (onDatabase f otherwise).perform m w =
      match w.store with
      | .memory _ => (.ok (.ok otherwise), w)
      | .database db => (.ok (f db).1, { w with store := .database (f db).2 }) := rfl

/-- A step of a session. -/
structure SessionStep where
  /-- The time in nanoseconds. -/
  now : Nat
  /-- The random draws. -/
  draws : Draws
  /-- What a server replies to the commands of the step. -/
  replies : List Reply
  /-- What is done. -/
  call : Call

/-- What the call of a step finds outside. -/
def SessionStep.moment (s : SessionStep) : Moment := s.draws.moment s.now

/-- The world with the replies that a server of the cache is going to give; what was left of earlier
ones is dropped. -/
def World.serve (replies : List Reply) (w : World) : World :=
  match w.cache with
  | .memory _ => w
  | .remote _ => { w with cache := .remote ⟨replies, []⟩ }

theorem World.serve_of_memory {c : MemoryCache} {w : World} (h : w.cache = .memory c)
    (replies : List Reply) : w.serve replies = w := by
  rw [serve, h]

@[simp] theorem World.log_serve (replies : List Reply) (w : World) :
    (w.serve replies).log = w.log := by
  unfold serve
  cases w.cache <;> rfl

@[simp] theorem World.notifier_serve (replies : List Reply) (w : World) :
    (w.serve replies).notifier = w.notifier := by
  unfold serve
  cases w.cache <;> rfl

namespace Accounts

variable {a : Accounts} {w : World}

/-- The world after a step. -/
def turn (a : Accounts) (s : SessionStep) (w : World) : World :=
  ((s.call.perform a).perform s.moment (w.serve s.replies)).2

/-- A step that performs an operation. -/
theorem turn_of_operation {s : SessionStep} {op : Operation} (h : s.call = .operation op) :
    a.turn s w = ((op.perform a).perform s.moment (w.serve s.replies)).2 := by
  rw [turn, h, Call.perform, Action.perform_map]

/-- The world after some steps. -/
def afterSession (a : Accounts) (w : World) (steps : List SessionStep) : World :=
  steps.foldl (fun w s => a.turn s w) w

@[simp] theorem afterSession_nil : a.afterSession w [] = w := rfl

@[simp] theorem afterSession_cons (s : SessionStep) (steps : List SessionStep) :
    a.afterSession w (s :: steps) = a.afterSession (a.turn s w) steps := rfl

end Accounts

end AuthCore
