import AuthCore.Action
import AuthCore.Store.Migration

/-!
# Upkeep of the store

Bringing the database up to date, and asking whether it is. A store in memory always is.
-/

namespace AuthCore.Upkeep

/-- Does something with the database, if there is one. -/
def onDatabase (f : Database → Except Refusal α × Database) (otherwise : α) :
    Action (Except Refusal α) := fun _ w =>
  match w.store with
  | .memory _ => (.ok (.ok otherwise), w)
  | .database db =>
    let (r, db) := f db
    (.ok r, { w with store := .database db })

/-- Applies all pending migrations. -/
def migrate : Action Unit := do
  Action.log .migrationStarted
  match ← onDatabase (Database.migrateUp none) () with
  | .ok () => Action.log .migrationDone
  | .error r =>
    Action.log (.migrationFailed r.message)
    throw (.database .migrate)

/-- Takes back a number of migrations, or all of them. -/
def migrateDown (steps : Option Nat) : Action Unit := do
  match ← onDatabase (Database.migrateDown steps) () with
  | .ok () => return ()
  | .error _ => throw (.database .operation)

/-- The number of pending migrations. -/
def pending : Action Nat := do
  match ← onDatabase Database.pendingCount 0 with
  | .ok n =>
    if 0 < n then Action.log (.migrationsPending n)
    return n
  | .error _ => throw (.database .migrationStatus)

end AuthCore.Upkeep
