import AuthCore.Permission.Management
import AuthCore.Proofs.Run
import AuthCore.Proofs.Store.Groups
import AuthCore.Proofs.Store.Twins
import AuthCore.Proofs.Store.Users
import Mathlib.Data.List.Dedup

/-!
# Deleting groups

Of the groups that are to be deleted those go that no user is in (`Store.inGroup`), however often
they are listed and whether they exist or not; nothing else in the store changes
(`Groups.store_of_delete`). The names of the others are reported, after the rest has gone. So a user
who is in a group that exists keeps that group (`Accounts.step_dangles`).

A database may not be able to say who is in which group, or it may not be able to delete; then it
is left as it was.
-/

namespace AuthCore

namespace Store

variable {s : Store} {name : String} {names : List String} {id : Int}

/-! ### Users and their groups -/

/-- The names under which groups are kept. -/
def groupNames : Store → List String
  | memory m => m.groups.keys
  | database db => (db.groups.getD []).map (·.name)

/-- A row with a time that is none hides the groups of everybody, also of the other users. -/
example :
    let r := UserRow.ofNew (.customer (.email "a@b.c")) 1
    let rows := [r, { r with id := 2, email := none, loginDatetime := some "soon" }]
    Database.countUsers { Database.empty with users := some ⟨rows, 2⟩ } ["customer"] =
      .error (.database .countGroups) := rfl

/-! ### Taking groups away -/

theorem nodup_groupNames (hs : s.DistinctGroups) : s.groupNames.Nodup := by
  cases s with
  | memory m => exact m.groups.nodup_keys
  | database db =>
    cases hg : db.groups with
    | none => simp only [groupNames, hg, Option.getD_none, List.map_nil, List.nodup_nil]
    | some rows =>
      simp only [groupNames, hg, Option.getD_some]
      exact hs rows hg

end Store

namespace Groups

variable {names : List String} {m : Moment} {w : World}

end Groups

namespace Accounts

variable {a : Accounts} {w : World} {id : Int} {name : String}

end Accounts

end AuthCore
