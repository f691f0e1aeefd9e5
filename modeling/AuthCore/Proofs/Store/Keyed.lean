import AuthCore.Proofs.Store.Users

/-!
# Users are found under their own numbers

A store that finds users under their own numbers goes on doing so, whatever operations are
performed. A database reads the number off the row that it found by it; in memory it is an
invariant.
-/

namespace AuthCore

namespace Store

variable {s s' : Store} {id : Int} {u : User}

/-- In memory, every user is kept under its own number. -/
def Keyed : Store → Prop
  | memory m => ∀ id u, m.users.get? id = some u → u.id = id
  | database _ => True

theorem Keyed.of_sameUsers (h : s.SameUsers s') (hs : s.Keyed) : s'.Keyed := by
  cases s <;> cases s'
  case memory.memory => exact fun id u hu => hs id u (h.1 ▸ hu)
  case database.database => trivial
  all_goals exact h.elim

theorem Keyed.insert {m n : MemoryStore} (hs : (memory m).Keyed) (hu : u.id = id)
    (hn : n.users = m.users.insert id u) : (memory n).Keyed := by
  intro k v hv
  rw [hn, OrderedMap.get?_insert] at hv
  split at hv
  next hk => exact hk ▸ Option.some.inj hv ▸ hu
  next => exact hs k v hv

/-- Who is found by a number has it. -/
theorem Keyed.id_eq (hs : s.Keyed) (h : s.findById id = .ok (some u)) : u.id = id := by
  cases s with
  | memory m => exact hs id u (Except.ok.inj h)
  | database db =>
    obtain ⟨t, r, -, hr, hh⟩ := Database.findUser_eq_ok_some.1 h
    exact hh.id_eq.trans (UserTable.id_of_find? hr)

end Store

/-- Users stay under their own numbers. -/
def Frame.keyed : Frame where
  Allows _ w w' := w.store.Keyed → w'.store.Keyed
  outside _ hs h := hs.symm ▸ h
  trans h h' hk := h' (h hk)

theorem Frame.allowsWrites_keyed : Frame.keyed.AllowsWrites where
  createUser n m w := by
    show w.store.Keyed → (w.store.createUser n).2.Keyed
    cases w.store with
    | database db => exact fun _ => trivial
    | memory s =>
      intro hs
      simp only [Store.createUser, Store.ofMemory, MemoryStore.createUser]
      split
      · exact hs
      · exact hs.insert (u := n.toUser (s.lastUser + 1)) rfl rfl
  updateUser id c m w := by
    show w.store.Keyed → (w.store.updateUser id c).2.Keyed
    cases w.store with
    | database db => exact fun _ => trivial
    | memory s =>
      intro hs
      simp only [Store.updateUser, Store.ofMemory, MemoryStore.updateUser]
      split
      · exact hs
      next u hu => exact hs.insert (u := c.apply u) (hs id u hu) rfl
  createGroup g _ _ := .of_sameUsers (Store.sameUsers_createGroup g)
  updateGroup name g _ _ := .of_sameUsers (Store.sameUsers_updateGroup name g)
  deleteGroups names _ _ := .of_sameUsers (Store.sameUsers_deleteGroups names)

/-- Users are found under their own numbers after every run. -/
theorem Accounts.keyed_after {a : Accounts} {w : World} (hw : w.store.Keyed) (steps : List Step) :
    (a.after w steps).store.Keyed :=
  kept_after Frame.allowsWrites_keyed hw steps

end AuthCore
