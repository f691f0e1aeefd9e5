import AuthCore.Proofs.Store.Users
import Mathlib.Data.List.Nodup

/-!
# Sound stores

A store is sound if users have numbers of their own, none of them above the last one that was given.
Every operation keeps that. In a sound store whoever is found by a username is found by the number
as well, and whoever is not found can be registered.

Soundness is about what is kept. Whether a database can be written at all, and with times that it
can read back, is a matter of its own (`Store.Serves`); a memory store always serves.
-/

namespace AuthCore

/-- A new user has a username and no other one. -/
def NewUser.GoesBy (n : NewUser) : Username → Prop
  | .email e => n.email = some e ∧ n.mobileNumber = none
  | .phone p => n.email = none ∧ n.mobileNumber = some p

namespace Store

variable {s s' : Store} {id : Int} {c : UserChanges} {n : NewUser} {u : User}

/-- Users have numbers of their own, up to the last one that was given. -/
def Sound : Store → Prop
  | memory m => ∀ id u, m.users.get? id = some u → u.id = id ∧ id ≤ m.lastUser
  | database db => ∀ t, db.users = some t →
    (t.rows.map (·.id)).Nodup ∧ ∀ r ∈ t.rows, r.id ≤ t.lastId

namespace Sound

theorem of_sameUsers (h : s.SameUsers s') (hs : s.Sound) : s'.Sound := by
  cases s <;> cases s'
  case memory.memory =>
    intro id u hu
    rw [h.1] at hu
    rw [h.2]
    exact hs id u hu
  case database.database => exact fun t ht => hs t (h.1.symm.trans ht)
  all_goals exact h.elim

theorem insert {m n : MemoryStore} (hs : (memory m).Sound) (hu : u.id = id)
    (hn : n.users = m.users.insert id u) (hlast : m.lastUser ≤ n.lastUser)
    (hid : id ≤ n.lastUser) : (memory n).Sound := by
  intro k v hv
  rw [hn, OrderedMap.get?_insert] at hv
  split at hv
  next hk => exact ⟨hk ▸ Option.some.inj hv ▸ hu, hk ▸ hid⟩
  next => exact (hs k v hv).imp_right hlast.trans'

theorem empty : (memory .empty).Sound := fun _ _ h => nomatch h

/-- Users may be put into a memory store under any numbers. -/
theorem insertUser {m : MemoryStore} (hs : (memory m).Sound) (u : User) :
    (memory (m.insertUser u)).Sound :=
  hs.insert rfl rfl (le_max_left _ _) (le_max_right _ _)

theorem createUser (hs : s.Sound) (n : NewUser) : (s.createUser n).2.Sound := by
  cases s with
  | memory m =>
    simp only [Store.createUser, ofMemory, MemoryStore.createUser]
    split
    next => exact hs
    next => exact hs.insert (u := n.toUser (m.lastUser + 1)) rfl rfl (Int.le_add_one le_rfl) le_rfl
  | database db =>
    rcases db.createUser_cases n with ⟨e, hx, -⟩ | ⟨t, ht, -, hfree, hx⟩
    · simpa only [Store.createUser, ofDatabase, hx] using hs
    · simp only [Store.createUser, ofDatabase, hx]
      rintro _ ⟨⟩
      obtain ⟨hnd, hle⟩ := hs t ht
      refine ⟨?_, forall_mem_concat.2 ⟨fun r hr => (hle r hr).trans (le_max_left _ _),
        le_max_right _ _⟩⟩
      rw [UserTable.insert, List.map_append, List.map_singleton, List.nodup_append]
      refine ⟨hnd, List.nodup_singleton _, fun k hk k' hk' he => ?_⟩
      obtain ⟨r, hr, rfl⟩ := List.mem_map.1 hk
      have hid : r.id = t.lastId + 1 := he.trans (List.mem_singleton.1 hk')
      exact List.find?_eq_none.1 hfree r hr (beq_iff_eq.2 hid)

theorem updateUser (hs : s.Sound) (id : Int) (c : UserChanges) : (s.updateUser id c).2.Sound := by
  cases s with
  | memory m =>
    simp only [Store.updateUser, ofMemory, MemoryStore.updateUser]
    split
    next => exact hs
    next u hu =>
      obtain ⟨hid, hle⟩ := hs id u hu
      exact hs.insert (u := c.apply u) hid rfl le_rfl hle
  | database db =>
    rcases db.updateUser_cases id c with ⟨e, hx, -⟩ | ⟨t, r, ht, hr, hx⟩
    · simpa only [Store.updateUser, ofDatabase, hx] using hs
    · simp only [Store.updateUser, ofDatabase, hx]
      rintro _ ⟨⟩
      obtain ⟨hnd, hle⟩ := hs t ht
      refine ⟨?_, fun q hq => ?_⟩
      · rw [UserTable.replace, List.map_map]
        simpa only [Function.comp_def, UserTable.id_replaced] using hnd
      · obtain ⟨p, hp, rfl⟩ := List.mem_map.1 hq
        rw [UserTable.id_replaced]
        exact hle p hp

/-- Whoever is found by a username is found by the number as well. -/
theorem findById_of_findByUsername (hs : s.Sound) {name : Username} {roles : Option (List Role)}
    (h : s.findByUsername name roles = .ok (some u)) : s.findById u.id = .ok (some u) := by
  cases s with
  | memory m =>
    obtain ⟨id, hu⟩ := OrderedMap.mem_values_iff.1 (List.mem_of_find?_eq_some (Except.ok.inj h))
    exact (hs id u hu).1 ▸ congrArg Except.ok hu
  | database db =>
    obtain ⟨t, r, ht, hr, hh⟩ := Database.findUser_eq_ok_some.1 h
    have hmem := List.mem_of_find?_eq_some hr
    -- no other row has the number
    have hfind : t.rows.find? (fun q => q.id == r.id) = some r := by
      cases hq : t.rows.find? fun q => q.id == r.id with
      | none => exact absurd (beq_self_eq_true r.id) (List.find?_eq_none.1 hq r hmem)
      | some q =>
        exact congrArg some (List.inj_on_of_nodup_map (hs t ht).1 (List.mem_of_find?_eq_some hq)
          hmem (UserTable.id_of_find? hq))
    exact Database.findUser_eq_ok_some.2 ⟨t, r, ht, hh.id_eq ▸ hfind, hh⟩

/-- Whoever is not found can be registered. -/
theorem createUser_of_absent (hs : s.Sound) (hw : s.IsWritable) {name : Username}
    (hn : n.GoesBy name) (h : s.findByUsername name none = .ok none) :
    ∃ u, (s.createUser n).1 = .ok u := by
  cases s with
  | memory m =>
    have hfree : m.users.values.any (MemoryStore.clashes n) = false := by
      refine List.any_eq_false.2 fun u hu hc => ?_
      have hne := List.find?_eq_none.1 (Except.ok.inj h) u hu
      cases name <;> simp_all [MemoryStore.clashes, NewUser.GoesBy, User.hasUsername, Role.allowed]
    refine ⟨n.toUser (m.lastUser + 1), ?_⟩
    simp only [Store.createUser, ofMemory, MemoryStore.createUser, hfree, Bool.false_eq_true,
      if_false]
  | database db =>
    obtain ⟨t, ht, hnone⟩ := Database.findUser_eq_ok_none.1 h
    rcases db.createUser_cases n with ⟨e, -, hwhy⟩ | ⟨t, -, -, -, hx⟩
    · exfalso
      rcases hwhy with hro | hc
      · cases hro.symm.trans hw
      · obtain ⟨r, hr, hc⟩ := List.any_eq_true.1 (hc t ht)
        replace hnone := List.find?_eq_none.1 hnone r hr
        have hid : t.lastId + 1 ≠ r.id := fun he => by
          have := (hs t ht).2 r hr
          omega
        cases name <;> simp_all [UserRow.clashes, UserRow.ofNew, NewUser.GoesBy,
          UserRow.hasUsername, UserRow.hasRole]
    · refine ⟨n.toUser (t.lastId + 1), ?_⟩
      rw [Store.createUser, hx]
      rfl

end Sound

/-! ### Stores at work -/

/-- A store serves at a time: a database can be written, and the time and the times that it has
noted are such that it can read them back. -/
def Serves (now : Timestamp) : Store → Prop
  | memory _ => True
  | database db => db.readOnly = false ∧ now.Plain ∧
    ∀ id u, db.findById id = .ok (some u) → ∀ t, u.loginDatetime = some t → t.Plain

namespace Serves

variable {now : Timestamp}

/-- The sign-in of somebody who is found can be noted. -/
theorem takes {m : Moment} (h : s.Serves m.timestamp) (hf : s.findById id = .ok (some u))
    (extra : UserChanges) : s.Takes (Accounts.signInChanges u extra m) := by
  cases s with
  | memory _ => trivial
  | database db =>
    refine ⟨h.1, fun stamp hstamp => ?_⟩
    obtain rfl := Option.some.inj hstamp
    exact ⟨h.2.1, fun t ht => h.2.2 id u hf t ht⟩

/-- A new user has signed in at no time. -/
theorem createUser (h : s.Serves now) (hc : s.createUser n = (.ok u, s')) : s'.Serves now := by
  obtain ⟨⟨id, rfl⟩, hfound, hothers, hwritable⟩ := createUser_of_ok hc
  cases s with
  | memory m =>
    simp only [Store.createUser, ofMemory] at hc
    obtain ⟨-, rfl⟩ := Prod.mk.inj hc
    trivial
  | database db =>
    simp only [Store.createUser, ofDatabase] at hc
    obtain ⟨-, rfl⟩ := Prod.mk.inj hc
    refine ⟨hwritable, h.2.1, fun k v hv t ht => ?_⟩
    by_cases hk : k = (n.toUser id).id
    · obtain rfl : n.toUser id = v := by
        rw [hk] at hv
        exact Option.some.inj (Except.ok.inj (hfound.symm.trans hv))
      cases ht
    · exact h.2.2 k v ((hothers k hk).symm.trans hv) t ht

end Serves

end Store

/-- Every operation keeps a store sound. -/
theorem Frame.allowsWrites_sound : (Frame.kept Store.Sound).AllowsWrites where
  createUser n _ _ hs := hs.createUser n
  updateUser id c _ _ hs := hs.updateUser id c
  createGroup g _ _ := .of_sameUsers (Store.sameUsers_createGroup g)
  updateGroup name g _ _ := .of_sameUsers (Store.sameUsers_updateGroup name g)
  deleteGroups names _ _ := .of_sameUsers (Store.sameUsers_deleteGroups names)

/-- Stores are sound after every run. -/
theorem Accounts.sound_after {a : Accounts} {w : World} (hw : w.store.Sound) (steps : List Step) :
    (a.after w steps).store.Sound :=
  kept_after Frame.allowsWrites_sound hw steps

end AuthCore
