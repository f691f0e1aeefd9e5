import AuthCore.Proofs.Account.Frame
import AuthCore.Proofs.Store.Mirror
import AuthCore.Proofs.Store.Row

/-!
# The users of a store

A store is seen through the users it finds by their numbers. An update changes what is found under
one number, a new user is found where nobody was, and a call that fails leaves the store as it was;
only a database may have written a row that it cannot read back. This is said of every store, also
of a database with rows that someone else wrote.
-/

namespace AuthCore

open AuthCore.Frame

/-! ### Rows -/

theorem readTime_eq_ok_congr {fault fault' : DatabaseFault} {text : Option String}
    {t : Option Timestamp} (h : readTime fault text = .ok t) : readTime fault' text = .ok t := by
  cases text with
  | none => exact h
  | some s =>
    rw [readTime, Answer.map_eq_ok] at h ⊢
    simpa only [orFault_eq_ok] using h

/-- A row that is read once holds what was read. -/
theorem UserRow.holds_of_toUser {fault : DatabaseFault} {r : UserRow} {u : User}
    (h : r.toUser fault = .ok u) : r.Holds u := by
  intro fault'
  obtain ⟨hlogin, hlast, hrest⟩ := toUser_eq_ok.1 h
  exact toUser_eq_ok.2 ⟨readTime_eq_ok_congr hlogin, readTime_eq_ok_congr hlast, hrest⟩

theorem UserTable.id_of_find? {t : UserTable} {r : UserRow} {k : Int}
    (h : t.rows.find? (fun s => s.id == k) = some r) : r.id = k :=
  Rows.key_of_find? h

/-- A row that is replaced leaves its number behind. -/
theorem UserTable.id_replaced (r s : UserRow) : (if s.id == r.id then r else s).id = s.id :=
  Rows.key_replaced UserRow.id r s

namespace UserTable

variable {t : UserTable} {r old : UserRow} {k : Int}

/-- A row that takes the place of one with its number is found under that number only. -/
theorem find?_replace (hold : t.rows.find? (fun s => s.id == r.id) = some old) :
    (t.replace r).rows.find? (fun s => s.id == k) =
      if k = r.id then some r else t.rows.find? fun s => s.id == k :=
  Rows.find?_replaced hold k

/-- A new row is found under its number. -/
theorem find?_insert (hnew : t.rows.find? (fun s => s.id == r.id) = none) :
    (t.insert r).rows.find? (fun s => s.id == k) =
      if k = r.id then some r else t.rows.find? fun s => s.id == k :=
  Rows.find?_added hnew k

end UserTable

namespace Database

variable {db : Database} {sought : String} {test : UserRow → Bool} {u : User}

theorem findUser_eq_ok_some : db.findUser sought test = .ok (some u) ↔
    ∃ t r, db.users = some t ∧ t.rows.find? test = some r ∧ r.Holds u := by
  simp only [findUser, need, Answer.bind_eq_ok, orFault_eq_ok]
  constructor
  · rintro ⟨t, ht, h⟩
    split at h
    next => cases h
    next r hr =>
      obtain ⟨v, hv, h⟩ := Answer.bind_eq_ok.1 h
      exact ⟨t, r, ht, hr, Option.some.inj (Except.ok.inj h) ▸ UserRow.holds_of_toUser hv⟩
  · rintro ⟨t, r, ht, hr, hu⟩
    refine ⟨t, ht, ?_⟩
    rw [hr]
    exact Answer.bind_eq_ok.2 ⟨u, hu _, rfl⟩

theorem findUser_eq_ok_none : db.findUser sought test = .ok none ↔
    ∃ t, db.users = some t ∧ t.rows.find? test = none := by
  simp only [findUser, need, Answer.bind_eq_ok, orFault_eq_ok]
  refine exists_congr fun t => and_congr_right fun _ => ?_
  split
  next h => exact iff_of_true rfl h
  next r h =>
    rw [h]
    refine iff_of_false (fun hb => ?_) nofun
    obtain ⟨v, -, hv⟩ := Answer.bind_eq_ok.1 hb
    cases hv

/-- What is found depends on the row that passes the test. -/
theorem findUser_congr {t t' : UserTable} {test' : UserRow → Bool} {db' : Database}
    (ht : db.users = some t) (ht' : db'.users = some t')
    (h : t'.rows.find? test' = t.rows.find? test) :
    db'.findUser sought test' = db.findUser sought test := by
  have hneed (t : UserTable) : need (.findUser sought) (some t) = .ok t := rfl
  simp only [findUser, ht, ht', hneed, bind, Except.bind, h]

/-- What an update of a database does: it may not write, or it finds no row that it can read, or it
writes the row that it has found and reads it back. -/
theorem updateUser_cases (db : Database) (id : Int) (c : UserChanges) :
    (∃ e, db.updateUser id c = (.error e, db) ∧ (db.readOnly = true ∨
        ∀ u, db.findById id ≠ .ok (some u))) ∨
      ∃ t r, db.users = some t ∧ t.rows.find? (fun s => s.id == id) = some r ∧
        db.updateUser id c = ((UserRow.update c r).toUser (.updateUser id),
          { db with users := some (t.replace (r.update c)) }) := by
  rw [updateUser]
  split
  next hn =>
    refine .inl ⟨_, rfl, .inr fun u hu => ?_⟩
    obtain ⟨t, -, ht, -⟩ := findUser_eq_ok_some.1 hu
    cases hn.symm.trans ht
  next t ht =>
    split
    next hnone =>
      refine .inl ⟨_, rfl, .inr fun u hu => ?_⟩
      obtain ⟨t', r, ht', hr, -⟩ := findUser_eq_ok_some.1 hu
      obtain rfl := Option.some.inj (ht.symm.trans ht')
      cases hnone.symm.trans hr
    next r hr =>
      split
      next e he =>
        refine .inl ⟨_, rfl, .inr fun u hu => ?_⟩
        obtain ⟨t', r', ht', hr', hholds⟩ := findUser_eq_ok_some.1 hu
        obtain rfl := Option.some.inj (ht.symm.trans ht')
        obtain rfl := Option.some.inj (hr.symm.trans hr')
        cases he.symm.trans (hholds.times_eq _)
      next =>
        split
        next hw => exact .inl ⟨_, rfl, .inl hw⟩
        next => exact .inr ⟨t, r, ht, hr, rfl⟩

/-- What the creation of a user in a database does: it may not write, or address or number are
taken, or it adds a row under a number that nobody has. -/
theorem createUser_cases (db : Database) (n : NewUser) :
    (∃ e, db.createUser n = (.error e, db) ∧ (db.readOnly = true ∨ ∀ t, db.users = some t →
        t.rows.any (UserRow.ofNew n (t.lastId + 1)).clashes = true)) ∨
      ∃ t, db.users = some t ∧ db.readOnly = false ∧
        t.rows.find? (fun s => s.id == t.lastId + 1) = none ∧
        db.createUser n = (.ok (n.toUser (t.lastId + 1)),
          { db with users := some (t.insert (UserRow.ofNew n (t.lastId + 1))) }) := by
  rw [createUser]
  split
  next hn => exact .inl ⟨_, rfl, .inr fun t ht => nomatch hn.symm.trans ht⟩
  next t ht =>
    by_cases hc : (db.readOnly || t.rows.any (UserRow.ofNew n (t.lastId + 1)).clashes) = true
    · simp only [insertUserRow, ht, hc, if_true, Bool.false_eq_true, if_false]
      exact .inl ⟨_, rfl, (Bool.or_eq_true_iff.1 hc).imp_right fun h t' ht' =>
        Option.some.inj ht' ▸ h⟩
    · obtain ⟨hw, hfree⟩ := Bool.or_eq_false_iff.1 (Bool.eq_false_iff.2 hc)
      refine .inr ⟨t, ht, hw, List.find?_eq_none.2 fun s hs he => ?_, ?_⟩
      · refine List.any_eq_false.1 hfree s hs ?_
        have hid : ((UserRow.ofNew n (t.lastId + 1)).id == s.id) = true :=
          beq_iff_eq.2 (beq_iff_eq.1 he).symm
        rw [UserRow.clashes, hid, Bool.true_or, Bool.true_or]
      · simp only [insertUserRow, ht, hc, if_true, Bool.false_eq_true, if_false,
          UserRow.holds_ofNew n (t.lastId + 1) _]

end Database

namespace Store

variable {s s' : Store} {id k : Int} {c : UserChanges} {n : NewUser} {u v : User} {e : Error}

/-! ### Updates -/

/-- An update of a user leaves the others alone. -/
theorem findById_updateUser_of_ne (h : k ≠ id) :
    (s.updateUser id c).2.findById k = s.findById k := by
  cases s with
  | memory m =>
    simp only [updateUser, ofMemory, MemoryStore.updateUser]
    split
    next => rfl
    next => exact congrArg Except.ok (OrderedMap.get?_insert_of_ne h _ _)
  | database db =>
    rcases db.updateUser_cases id c with ⟨e, hx, -⟩ | ⟨t, r, ht, hr, hx⟩
    · simp only [updateUser, ofDatabase, hx]
    · simp only [updateUser, ofDatabase, hx]
      obtain rfl := UserTable.id_of_find? hr
      refine Database.findUser_congr ht rfl ?_
      exact (UserTable.find?_replace (r := r.update c) hr).trans (if_neg h)

/-- Whoever has been updated is found. -/
theorem findById_of_updateUser (h : s.updateUser id c = (.ok u, s')) :
    s'.findById id = .ok (some u) := by
  cases s with
  | memory m =>
    simp only [updateUser, ofMemory, MemoryStore.updateUser] at h
    split at h
    next => cases h
    next =>
      cases h
      exact congrArg Except.ok (OrderedMap.get?_insert_self _ _ _)
  | database db =>
    rcases db.updateUser_cases id c with ⟨e, hx, -⟩ | ⟨t, r, -, hr, hx⟩
    · rw [updateUser, hx] at h
      cases h
    · rw [updateUser, hx] at h
      obtain ⟨hu, rfl⟩ := Prod.mk.inj h
      obtain rfl := UserTable.id_of_find? hr
      exact Database.findUser_eq_ok_some.2 ⟨_, r.update c, rfl,
        (UserTable.find?_replace (r := r.update c) hr).trans (if_pos rfl),
        UserRow.holds_of_toUser hu⟩

/-- An update writes the mark that a user has to sign in again if it says so. -/
theorem isForceLogin_of_updateUser (h : s.updateUser id c = (.ok u, s')) {b : Bool}
    (hb : c.isForceLogin = some b) : u.isForceLogin = b := by
  cases s with
  | memory m =>
    simp only [updateUser, ofMemory, MemoryStore.updateUser] at h
    split at h
    next => cases h
    next =>
      cases h
      rw [UserChanges.apply, hb, Option.getD_some]
  | database db =>
    rcases db.updateUser_cases id c with ⟨e, hx, -⟩ | ⟨t, r, -, -, hx⟩
    · rw [updateUser, hx] at h
      cases h
    · rw [updateUser, hx] at h
      have hu := (UserRow.holds_of_toUser (Prod.mk.inj h).1).eq
      rw [hu, UserRow.update, hb, Option.getD_some]

/-- A store can be written. -/
def IsWritable : Store → Prop
  | memory _ => True
  | database db => db.readOnly = false

/-- An update that fails changes nothing, and then nobody was found or the store cannot be written;
only a database may have written a row that it cannot read back. -/
theorem updateUser_of_error (h : s.updateUser id c = (.error e, s')) :
    (s' = s ∧ (s.IsWritable → ∀ v, s.findById id ≠ .ok (some v))) ∨
      ∃ f, s'.findById id = .error f := by
  cases s with
  | memory m =>
    simp only [updateUser, ofMemory, MemoryStore.updateUser] at h
    split at h
    next hn =>
      cases h
      refine .inl ⟨rfl, fun _ v hv => ?_⟩
      cases hn.symm.trans (Except.ok.inj hv)
    next => cases h
  | database db =>
    rcases db.updateUser_cases id c with ⟨e, hx, hwhy⟩ | ⟨t, r, -, hr, hx⟩
    · rw [updateUser, hx] at h
      cases h
      refine .inl ⟨rfl, fun hw v hv => ?_⟩
      rcases hwhy with hro | hn
      · cases hro.symm.trans hw
      · exact hn v hv
    · rw [updateUser, hx] at h
      obtain ⟨hu, rfl⟩ := Prod.mk.inj h
      obtain rfl := UserTable.id_of_find? hr
      -- the row has been written, and whoever looks for it runs into it
      have hrow := (UserTable.find?_replace (k := r.id) (r := r.update c) hr).trans (if_pos rfl)
      refine .inr ?_
      cases hf : (database { db with users := some (t.replace (r.update c)) }).findById r.id with
      | error f => exact ⟨f, rfl⟩
      | ok o =>
        cases o with
        | none =>
          obtain ⟨_, ht, hn⟩ := Database.findUser_eq_ok_none.1 hf
          cases Option.some.inj ht
          cases hrow.symm.trans hn
        | some v =>
          obtain ⟨_, _, ht, hr', hv⟩ := Database.findUser_eq_ok_some.1 hf
          cases Option.some.inj ht
          cases hrow.symm.trans hr'
          cases hu.symm.trans (hv _)

/-- What a store may have become when a user could not be updated: what it was, or a database with
a row that it cannot read back. -/
def Spoils (s s' : Store) : Prop :=
  s' = s ∨ ∃ id f, s'.findById id = .error f ∧ ∀ k, k ≠ id → s'.findById k = s.findById k

theorem spoils_of_updateUser (h : s.updateUser id c = (.error e, s')) : s.Spoils s' := by
  refine (updateUser_of_error h).imp And.left fun ⟨f, hf⟩ => ⟨id, f, hf, fun k hk => ?_⟩
  rw [← findById_updateUser_of_ne (s := s) (c := c) hk, h]

/-- A store takes an update: a database has to be writable, and the times have to be such that it
can read them back. -/
def Takes (c : UserChanges) : Store → Prop
  | memory _ => True
  | database db => db.readOnly = false ∧ c.Plain

/-- Whoever is found can be updated. -/
theorem updateUser_of_found (hf : s.findById id = .ok (some v)) (hc : s.Takes c) :
    (s.updateUser id c).1 = .ok (c.apply v) := by
  cases s with
  | memory m =>
    have hv : m.users.get? id = some v := Except.ok.inj hf
    simp only [updateUser, ofMemory, MemoryStore.updateUser, hv]
  | database db =>
    obtain ⟨t, r, ht, hr, hv⟩ := Database.findUser_eq_ok_some.1 hf
    obtain ⟨hw, hc⟩ := hc
    simp only [updateUser, ofDatabase, Database.updateUser, ht, hr, hv.times_eq, hw,
      Bool.false_eq_true, if_false, hv.update hc _]

/-! ### New users -/

/-- A new user is found under a number of its own, and the store could be written. -/
theorem createUser_of_ok (h : s.createUser n = (.ok u, s')) : (∃ id, u = n.toUser id) ∧
    s'.findById u.id = .ok (some u) ∧ (∀ k, k ≠ u.id → s'.findById k = s.findById k) ∧
    s'.IsWritable := by
  cases s with
  | memory m =>
    simp only [createUser, ofMemory, MemoryStore.createUser] at h
    split at h
    next => cases h
    next =>
      cases h
      refine ⟨⟨_, rfl⟩, congrArg Except.ok (OrderedMap.get?_insert_self _ _ _), fun k hk => ?_,
        trivial⟩
      exact congrArg Except.ok (OrderedMap.get?_insert_of_ne hk _ _)
  | database db =>
    rcases db.createUser_cases n with ⟨e, hx, -⟩ | ⟨t, ht, hw, hfree, hx⟩
    · rw [createUser, hx] at h
      cases h
    · rw [createUser, hx] at h
      cases h
      have hfind (k : Int) := UserTable.find?_insert (k := k) (r := .ofNew n (t.lastId + 1)) hfree
      refine ⟨⟨_, rfl⟩, ?_, fun k hk => ?_, hw⟩
      · exact Database.findUser_eq_ok_some.2
          ⟨_, _, rfl, (hfind _).trans (if_pos rfl), UserRow.holds_ofNew n _⟩
      · exact Database.findUser_congr ht rfl ((hfind k).trans (if_neg hk))

theorem createUser_of_error (h : s.createUser n = (.error e, s')) : s' = s := by
  cases s with
  | memory m =>
    simp only [createUser, ofMemory, MemoryStore.createUser] at h
    split at h
    next =>
      cases h
      rfl
    next => cases h
  | database db =>
    rcases db.createUser_cases n with ⟨e, hx, -⟩ | ⟨t, -, -, -, hx⟩
    · rw [createUser, hx] at h
      cases h
      rfl
    · rw [createUser, hx] at h
      cases h

/-! ### Groups -/

/-- Two stores keep the same users in the same way. -/
def SameUsers : Store → Store → Prop
  | memory m, memory m' => m'.users = m.users ∧ m'.lastUser = m.lastUser
  | database db, database db' => db'.users = db.users ∧ db'.readOnly = db.readOnly
  | _, _ => False

namespace SameUsers

theorem refl : ∀ s : Store, s.SameUsers s
  | memory _ => ⟨rfl, rfl⟩
  | database _ => ⟨rfl, rfl⟩

theorem trans {s'' : Store} (h : s.SameUsers s') (h' : s'.SameUsers s'') : s.SameUsers s'' := by
  cases s <;> cases s' <;> cases s'' <;>
    first
    | exact ⟨h'.1.trans h.1, h'.2.trans h.2⟩
    | exact h.elim
    | exact h'.elim

theorem findById_eq (h : s.SameUsers s') (id : Int) : s'.findById id = s.findById id := by
  cases s <;> cases s'
  case memory.memory m m' => exact congrArg (fun users => Except.ok (users.get? id)) h.1
  case database.database db db' =>
    show db'.findUser _ _ = db.findUser _ _
    rw [Database.findUser, Database.findUser, h.1]
  all_goals exact h.elim

end SameUsers

theorem sameUsers_createGroup (g : Group) : s.SameUsers (s.createGroup g).2 := by
  cases s with
  | memory m =>
    simp only [createGroup, ofMemory, MemoryStore.createGroup]
    split <;> exact ⟨rfl, rfl⟩
  | database db =>
    have hinsert (r : GroupRow) :
        (database db).SameUsers (.database (db.insertGroupRow r).2) := by
      rw [Database.insertGroupRow]
      split
      next => exact ⟨rfl, rfl⟩
      next => split <;> exact ⟨rfl, rfl⟩
    simp only [createGroup, ofDatabase, Database.createGroup]
    split
    next => exact ⟨rfl, rfl⟩
    next => exact ⟨rfl, rfl⟩
    next => split <;> exact hinsert _

theorem sameUsers_updateGroup (name : String) (g : GroupUpdate) :
    s.SameUsers (s.updateGroup name g).2 := by
  cases s with
  | memory m =>
    simp only [updateGroup, ofMemory, MemoryStore.updateGroup]
    split <;> exact ⟨rfl, rfl⟩
  | database db =>
    simp only [updateGroup, ofDatabase, Database.updateGroup]
    repeat' split
    all_goals exact ⟨rfl, rfl⟩

theorem sameUsers_deleteGroups (names : List String) : s.SameUsers (s.deleteGroups names).2 := by
  cases s with
  | memory m => exact ⟨rfl, rfl⟩
  | database db =>
    simp only [deleteGroups, ofDatabase, Database.deleteGroups]
    repeat' split
    all_goals exact ⟨rfl, rfl⟩

end Store

/-! ### Operations that only change groups -/

/-- The users of the store stay as they are. -/
def Frame.users : Frame where
  Allows _ w w' := w.store.SameUsers w'.store
  outside _ hs := hs ▸ Store.SameUsers.refl _
  trans h h' := h.trans h'

namespace Frame

theorem allowsGroups_users : users.AllowsGroups where
  createGroup g _ _ := Store.sameUsers_createGroup g
  updateGroup name g _ _ := Store.sameUsers_updateGroup name g
  deleteGroups names _ _ := Store.sameUsers_deleteGroups names

theorem allowsTokens_users : users.AllowsTokens :=
  ⟨fun _ _ _ _ _ => .refl _, fun _ _ _ => .refl _, fun _ _ _ _ => .refl _⟩

theorem allowsCode_users (u : Username) : users.AllowsCode u :=
  ⟨fun _ _ _ _ => .refl _, fun _ _ _ _ => .refl _⟩

end Frame

/-- An operation that writes no user keeps the users as they are. -/
theorem Operation.sameUsers_perform {a : Accounts} {op : Operation} (h : op.writesUsers = false)
    (m : Moment) (w : World) : w.store.SameUsers ((op.perform a).perform m w).2.store :=
  keeps_perform_of_not_writesUsers h allowsGroups_users allowsTokens_users
    (fun name _ => allowsCode_users name) m w

end AuthCore
