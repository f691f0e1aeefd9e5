import AuthCore.Proofs.Store.Mirror
import AuthCore.Proofs.Store.Row
import AuthCore.Store.Basic
import AuthCore.Store.Migration

/-!
# Memory and database stores are twins

A store in memory and one in a database that hold the same answer every call alike and go on holding
the same. The database has its tables and takes writes, and rows mirror the maps of the memory store
(`Twins`). One call is compared first, and with it any calls made one after the other.

Lists of groups and of catalog entries are compared as sets: the database has them in the order of
its rows, and it answers a name that was asked for twice once. Errors are compared by their kind and
by the domain error in them, since a fault of a database has a text of its own.
-/

namespace AuthCore

/-! ### Calls -/

/-- A call of a store. -/
inductive StoreCall where
  | findById (id : Int)
  | findByUsername (name : Username) (roles : Option (List Role))
  | findByEmail (email : String)
  | createUser (n : NewUser)
  | updateUser (id : Int) (c : UserChanges)
  | countUsers (names : List String)
  | findGroups (names : List String)
  | findGroup (name : String)
  | createGroup (g : Group)
  | updateGroup (name : String) (u : GroupUpdate)
  | deleteGroups (names : List String)
  | findEntity (name : String)
  | listEntities
  | upsertEntity (e : EntityRules)

/-- What a call answers if it does not fail. -/
inductive StoreAnswer where
  | found (u : Option User)
  | user (u : User)
  | counts (m : OrderedMap String Nat)
  | groups (gs : List Group)
  | foundGroup (g : Option Group)
  | group (g : Group)
  | number (n : Nat)
  | foundEntity (e : Option EntityRules)
  | entities (es : List EntityRules)
  | done

namespace StoreCall

/-- The answer to a question, and the store as it was. -/
def asked {α : Type} (f : α → StoreAnswer) (r : Answer α) (s : Store) :
    Answer StoreAnswer × Store :=
  (r.map f, s)

/-- The answer to a change, and the store as it is now. -/
def changed {α : Type} (f : α → StoreAnswer) (r : Answer α × Store) : Answer StoreAnswer × Store :=
  (r.1.map f, r.2)

/-- Makes a call of a store. -/
def perform (s : Store) : StoreCall → Answer StoreAnswer × Store
  | findById id => asked .found (s.findById id) s
  | findByUsername name roles => asked .found (s.findByUsername name roles) s
  | findByEmail email => asked .found (s.findByEmail email) s
  | createUser n => changed .user (s.createUser n)
  | updateUser id c => changed .user (s.updateUser id c)
  | countUsers names => asked .counts (s.countUsers names) s
  | findGroups names => asked .groups (s.findGroups names) s
  | findGroup name => asked .foundGroup (s.findGroup name) s
  | createGroup g => changed .group (s.createGroup g)
  | updateGroup name u => changed .group (s.updateGroup name u)
  | deleteGroups names => changed .number (s.deleteGroups names)
  | findEntity name => asked .foundEntity (s.findEntity name) s
  | listEntities => asked .entities s.listEntities s
  | upsertEntity e => changed (fun _ => .done) (s.upsertEntity e)

/-- The times in a call can be written. -/
def Plain : StoreCall → Prop
  | updateUser _ c => c.Plain
  | _ => True

end StoreCall

/-- The answers to calls made one after the other, and the store in the end. -/
def Store.run (s : Store) : List StoreCall → List (Answer StoreAnswer) × Store
  | [] => ([], s)
  | call :: calls =>
    let (answer, s) := call.perform s
    let (answers, s) := s.run calls
    (answer :: answers, s)

/-- Two answers are the same; the order of groups and of catalog entries, and how often they are
listed, does not matter. -/
def StoreAnswer.Alike : StoreAnswer → StoreAnswer → Prop
  | groups gs, groups gs' => ∀ g, g ∈ gs ↔ g ∈ gs'
  | entities es, entities es' => ∀ e, e ∈ es ↔ e ∈ es'
  | x, y => x = y

/-- Two answers are alike, or two errors are of the same kind, with the same domain error if they
have one. -/
def Answer.Alike : Answer StoreAnswer → Answer StoreAnswer → Prop
  | .ok x, .ok y => x.Alike y
  | .error e, .error f => e.area = f.area ∧ e.auth? = f.auth?
  | _, _ => False

/-! ### Stores that hold the same -/

/-- Two users have the same e-mail address or the same phone number. -/
def User.SharesContact (u v : User) : Prop :=
  (∃ e, u.email = some e ∧ v.email = some e) ∨
    ∃ n, u.mobileNumber = some n ∧ v.mobileNumber = some n

/-- A table holds users of whom no two share an address or a number, and both have used the same
numbers. -/
structure UserTwins (users : OrderedMap Int User) (last : Int) (t : UserTable) : Prop where
  rows : Mirrors UserRow.id UserRow.Holds t.rows users
  lastId_eq : t.lastId = last
  le_last : ∀ id u, users.get? id = some u → id ≤ last
  distinct : ∀ i j u v, users.get? i = some u → users.get? j = some v → u.SharesContact v → i = j

/-- A database that takes writes holds what a memory store holds. -/
structure Twins (m : MemoryStore) (db : Database) : Prop where
  writable : db.readOnly = false
  users : ∃ t, db.users = some t ∧ UserTwins m.users m.lastUser t
  groups : ∃ rows, db.groups = some rows ∧ Mirrors GroupRow.name GroupRow.Holds rows m.groups
  entities : ∃ rows, db.entities = some rows ∧
    Mirrors EntityRow.codeName EntityRow.Holds rows m.entities

/-- Two outcomes of a call are alike and leave twins. -/
def Agree (r s : Answer StoreAnswer × Store) : Prop :=
  Answer.Alike r.1 s.1 ∧ ∃ m db, r.2 = .memory m ∧ s.2 = .database db ∧ Twins m db

theorem isSome_and_beq_iff {x y : Option String} :
    (x.isSome && y == x) = true ↔ ∃ a, x = some a ∧ y = some a := by
  cases x with
  | none => simp
  | some a => simp only [Option.isSome_some, Bool.true_and, beq_iff_eq, Option.some.injEq,
      exists_eq_left']

/-- A new user clashes with the users whose address or number it would share. -/
theorem MemoryStore.clashes_iff {n : NewUser} {u : User} (id : Int) :
    clashes n u = true ↔ (n.toUser id).SharesContact u := by
  rw [clashes, Bool.or_eq_true, isSome_and_beq_iff, isSome_and_beq_iff]
  rfl

theorem User.SharesContact.symm {u v : User} (h : u.SharesContact v) : v.SharesContact u :=
  h.imp (fun ⟨e, hu, hv⟩ => ⟨e, hv, hu⟩) fun ⟨n, hu, hv⟩ => ⟨n, hv, hu⟩

/-! ### Counting -/

/-- A tally counts how often each name occurs. -/
theorem get?_foldl_tally (names : List String) (m : OrderedMap String Nat) (k : String) :
    (names.foldl (fun m name => m.insert name ((m.get? name).getD 0 + 1)) m).get? k =
      if names.count k = 0 then m.get? k else some ((m.get? k).getD 0 + names.count k) := by
  induction names generalizing m with
  | nil => rfl
  | cons name names ih =>
    rw [List.foldl_cons, ih, OrderedMap.get?_insert, List.count_cons]
    by_cases hk : k = name
    · subst hk
      simp only [beq_self_eq_true, if_true, Nat.add_eq_zero_iff, Nat.one_ne_zero, and_false,
        if_false, Option.getD_some]
      split
      next h => rw [h, Nat.zero_add]
      next => rw [Nat.add_assoc, Nat.add_comm 1]
    · have hne : (name == k) = false := beq_eq_false_iff_ne.2 fun h => hk h.symm
      simp only [if_neg hk, hne, Bool.false_eq_true, if_false, Nat.add_zero]

/-- The order of the lists does not matter to a tally. -/
theorem tally_perm {names : List String} {lists lists' : List (List String)}
    (h : lists.Perm lists') : tally names lists = tally names lists' := by
  refine OrderedMap.ext_get? fun k => ?_
  have hp := h.flatMap_right fun l => l.filter names.contains
  rw [tally, tally, get?_foldl_tally, get?_foldl_tally, hp.count_eq]

namespace UserTwins

variable {users : OrderedMap Int User} {last : Int} {t : UserTable}

/-- The number after the last one is free. -/
theorem get?_next (h : UserTwins users last t) : users.get? (last + 1) = none := by
  cases hu : users.get? (last + 1) with
  | none => rfl
  | some u =>
    have := h.le_last _ u hu
    omega

/-- A new user is in the way of the same users in both. -/
theorem any_clashes_eq (h : UserTwins users last t) (n : NewUser) :
    t.rows.any (UserRow.ofNew n (t.lastId + 1)).clashes =
      users.values.any (MemoryStore.clashes n) := by
  refine h.rows.any_eq fun s hs v hh => ?_
  obtain ⟨w, hw, -⟩ := h.rows.held s hs
  have hle : s.id ≤ t.lastId := h.lastId_eq ▸ h.le_last _ _ hw
  have hid : ((UserRow.ofNew n (t.lastId + 1)).id == s.id) = false := by
    rw [beq_eq_false_iff_ne]
    show t.lastId + 1 ≠ s.id
    omega
  rw [UserRow.clashes, hid, Bool.false_or, MemoryStore.clashes, hh.email_eq, hh.mobileNumber_eq,
    BEq.comm (a := s.email), BEq.comm (a := s.mobileNumber)]
  rfl

/-- A new user who clashes with nobody keeps users and rows together. -/
theorem insert (h : UserTwins users last t) (n : NewUser)
    (hc : users.values.any (MemoryStore.clashes n) = false) :
    UserTwins (users.insert (last + 1) (n.toUser (last + 1))) (last + 1)
      (t.insert (UserRow.ofNew n (last + 1))) where
  rows := h.rows.append (r := UserRow.ofNew n (last + 1)) h.get?_next (UserRow.holds_ofNew n _)
  lastId_eq := by
    show max t.lastId (last + 1) = last + 1
    rw [h.lastId_eq]
    omega
  le_last id u hu := by
    rw [OrderedMap.get?_insert] at hu
    split at hu
    next he => exact he.le
    next =>
      have := h.le_last id u hu
      omega
  distinct i j u v hi hj hs := by
    have apart (k : Int) (w : User) (hk : users.get? k = some w) :
        ¬(n.toUser (last + 1)).SharesContact w := fun hs =>
      List.any_eq_false.1 hc w (OrderedMap.mem_values_iff.2 ⟨k, hk⟩)
        ((MemoryStore.clashes_iff _).2 hs)
    rw [OrderedMap.get?_insert] at hi hj
    split at hi <;> split at hj
    next he he' => exact he.trans he'.symm
    next => exact absurd (Option.some.inj hi ▸ hs) (apart j v hj)
    next => exact absurd (Option.some.inj hj ▸ hs.symm) (apart i u hi)
    next => exact h.distinct i j u v hi hj hs

/-- An update of a user keeps users and rows together. -/
theorem update (h : UserTwins users last t) {r : UserRow} {u : User} (hr : r ∈ t.rows)
    (hu : users.get? r.id = some u) {c : UserChanges} (hc : c.Plain) :
    UserTwins (users.insert r.id (c.apply u)) last (t.replace (r.update c)) := by
  -- an update changes neither number nor address nor phone number
  have before (k : Int) (w : User) (hk : (users.insert r.id (c.apply u)).get? k = some w) :
      ∃ w', users.get? k = some w' ∧ w'.email = w.email ∧ w'.mobileNumber = w.mobileNumber := by
    rw [OrderedMap.get?_insert] at hk
    split at hk
    next he => exact ⟨u, he ▸ hu, Option.some.inj hk ▸ ⟨rfl, rfl⟩⟩
    next => exact ⟨w, hk, rfl, rfl⟩
  constructor
  case rows => exact h.rows.replace (r := r.update c) hu ((h.rows.holds_of_get? hr hu).update hc)
  case lastId_eq => exact h.lastId_eq
  case le_last =>
    intro k w hk
    obtain ⟨w', hw', -⟩ := before k w hk
    exact h.le_last k w' hw'
  case distinct =>
    intro i j v w hi hj hs
    obtain ⟨v', hv', hve, hvn⟩ := before i v hi
    obtain ⟨w', hw', hwe, hwn⟩ := before j w hj
    refine h.distinct i j v' w' hv' hw' ?_
    rw [User.SharesContact] at hs ⊢
    rwa [hve, hvn, hwe, hwn]

end UserTwins

namespace Twins

variable {m : MemoryStore} {db : Database}

/-! ### Questions -/

theorem agree_asked {α : Type} (h : Twins m db) (f : α → StoreAnswer) {a b : α}
    (hab : (f a).Alike (f b)) {r r' : Answer α} (hr : r = .ok a) (hr' : r' = .ok b) :
    Agree (StoreCall.asked f r (.memory m)) (StoreCall.asked f r' (.database db)) := by
  subst hr hr'
  exact ⟨hab, m, db, rfl, rfl, h⟩

/-- Reads a row, if one was found. -/
def readFound {ρ ν : Type} (read : ρ → Answer ν) : Option ρ → Answer (Option ν)
  | none => return none
  | some r => return some (← read r)

/-- A row that is found is read. -/
theorem readFound_eq {ρ ν : Type} {Holds : ρ → ν → Prop} {read : ρ → Answer ν}
    (hread : ∀ r v, Holds r v → read r = .ok v) {found : Option ρ} {o : Option ν}
    (h : Option.Rel Holds found o) : readFound read found = .ok o := by
  cases h with
  | none => rfl
  | some hh =>
    rw [readFound, hread _ _ hh]
    rfl

theorem findUser_eq {t : UserTable} (ht : db.users = some t) {sought : String}
    {test : UserRow → Bool} {o : Option User}
    (h : Option.Rel UserRow.Holds (t.rows.find? test) o) : db.findUser sought test = .ok o := by
  have hx : db.findUser sought test =
      readFound (UserRow.toUser (.findUser sought)) (t.rows.find? test) := by
    simp only [Database.findUser, ht, Database.need, orFault, bind, Except.bind]
    cases t.rows.find? test <;> rfl
  rw [hx]
  exact readFound_eq (fun _ _ hh => hh _) h

theorem findById_eq (h : Twins m db) (id : Int) : db.findById id = .ok (m.findById id) := by
  obtain ⟨t, ht, hu⟩ := h.users
  exact findUser_eq ht (hu.rows.rel_find?_key id)

/-- A user is found by whatever no two users share. -/
theorem findUser_values_eq (h : Twins m db) {sought : String} {test : UserRow → Bool}
    {test' : User → Bool} (ht : ∀ r v, UserRow.Holds r v → test r = test' v)
    (hone : ∀ u v, test' u = true → test' v = true → u.SharesContact v) :
    db.findUser sought test = .ok (m.users.values.find? test') := by
  obtain ⟨t, ht', hu⟩ := h.users
  refine findUser_eq ht' (hu.rows.rel_find? (fun r _ v hh => ht r v hh) ?_)
  intro i j u v hi hj hu' hv
  exact hu.distinct i j u v hi hj (hone u v hu' hv)

theorem findByUsername_eq (h : Twins m db) (name : Username) (roles : Option (List Role)) :
    db.findByUsername name roles = .ok (m.findByUsername name roles) := by
  refine h.findUser_values_eq (fun r v hh => ?_) fun u v hu hv => ?_
  · rw [hh.hasUsername_eq, hh.hasRole_eq]
  · rw [Bool.and_eq_true] at hu hv
    cases name with
    | email e => exact .inl ⟨e, beq_iff_eq.1 hu.1, beq_iff_eq.1 hv.1⟩
    | phone n => exact .inr ⟨n, beq_iff_eq.1 hu.1, beq_iff_eq.1 hv.1⟩

theorem findByEmail_eq (h : Twins m db) (email : String) :
    db.findByEmail email = .ok (m.findByEmail email) := by
  refine h.findUser_values_eq (fun r v hh => ?_) fun u v hu hv => ?_
  · rw [hh.email_eq]
  · exact .inl ⟨email, beq_iff_eq.1 hu, beq_iff_eq.1 hv⟩

theorem countUsers_eq (h : Twins m db) (names : List String) :
    db.countUsers names = .ok (m.countUsers names) := by
  obtain ⟨t, ht, hu⟩ := h.users
  obtain ⟨us, hus, hperm⟩ := hu.rows.exists_mapM
    (f := fun r => readColumn (Json.list? Json.string?) "users.groups" r.groups) (g := User.groups)
    fun _ _ hh => readColumn_eq_ok.2 hh.groups_eq
  obtain ⟨ts, hts, -⟩ := hu.rows.exists_mapM (f := UserRow.times .countGroups)
    (g := fun u => (u.loginDatetime, u.lastLoginDatetime)) fun _ _ hh => hh.times_eq _
  rw [Database.countUsers, ht]
  show (t.rows.mapM _ >>= fun _ => t.rows.mapM _ >>= fun lists => pure (tally names lists) :
    Answer _) = _
  rw [hts]
  show (t.rows.mapM _ >>= fun lists => pure (tally names lists) : Answer _) = _
  rw [hus]
  exact congrArg Except.ok (tally_perm (hperm.map User.groups))

theorem findGroup_eq (h : Twins m db) (name : String) :
    db.findGroup name = .ok (m.findGroup name) := by
  obtain ⟨rows, hr, hg⟩ := h.groups
  have hx : db.findGroup name =
      readFound GroupRow.toGroup (rows.find? fun r => r.name == name) := by
    simp only [Database.findGroup, hr, Database.need, orFault, bind, Except.bind]
    cases rows.find? fun r => r.name == name <;> rfl
  rw [hx]
  exact readFound_eq (fun _ _ hh => hh) (hg.rel_find?_key name)

theorem findGroups_eq (h : Twins m db) (names : List String) :
    ∃ gs, db.findGroups names = .ok gs ∧ ∀ g, g ∈ m.findGroups names ↔ g ∈ gs := by
  obtain ⟨rows, hr, hg⟩ := h.groups
  cases names with
  | nil => exact ⟨[], rfl, fun g => Iff.rfl⟩
  | cons name names =>
    obtain ⟨gs, hgs, hperm⟩ := (hg.filter (name :: names).contains).exists_mapM (g := id)
      fun _ _ hh => hh
    refine ⟨gs, ?_, fun g => ?_⟩
    · rw [List.map_id] at hgs
      rw [Database.findGroups, hr]
      exact hgs
    · rw [hperm.mem_iff, OrderedMap.mem_values_iff, MemoryStore.findGroups, List.mem_filterMap]
      refine exists_congr fun k => ?_
      rw [OrderedMap.get?_filter, Option.filter_eq_some_iff, List.contains_iff_mem, and_comm]

theorem findEntity_eq (h : Twins m db) (name : String) :
    db.findEntity name = .ok (m.findEntity name) := by
  obtain ⟨rows, hr, he⟩ := h.entities
  have hx : db.findEntity name =
      readFound EntityRow.toRules (rows.find? fun r => r.codeName == name) := by
    simp only [Database.findEntity, hr, Database.need, orFault, bind, Except.bind]
    cases rows.find? fun r => r.codeName == name <;> rfl
  rw [hx]
  exact readFound_eq (fun _ _ hh => hh) (he.rel_find?_key name)

theorem listEntities_eq (h : Twins m db) :
    ∃ es, db.listEntities = .ok es ∧ ∀ e, e ∈ m.listEntities ↔ e ∈ es := by
  obtain ⟨rows, hr, he⟩ := h.entities
  obtain ⟨es, hes, hperm⟩ := he.exists_mapM (g := id) fun _ _ hh => hh
  refine ⟨es, ?_, fun e => hperm.symm.mem_iff⟩
  rw [List.map_id] at hes
  rw [Database.listEntities, hr]
  exact hes

/-! ### Changes -/

theorem agree_changed {α : Type} {f : α → StoreAnswer} {x : Answer α × MemoryStore}
    {y : Answer α × Database} {r r' : Answer α} {m' : MemoryStore} {db' : Database}
    (hx : x = (r, m')) (hy : y = (r', db')) (hr : Answer.Alike (r.map f) (r'.map f))
    (h : Twins m' db') :
    Agree (StoreCall.changed f (Store.ofMemory x)) (StoreCall.changed f (Store.ofDatabase y)) := by
  subst hx hy
  exact ⟨hr, m', db', rfl, rfl, h⟩

theorem agree_createUser (h : Twins m db) (n : NewUser) :
    Agree (StoreCall.perform (.memory m) (.createUser n))
      (StoreCall.perform (.database db) (.createUser n)) := by
  obtain ⟨t, ht, hu⟩ := h.users
  have hany := hu.any_clashes_eq n
  by_cases hc : m.users.values.any (MemoryStore.clashes n) = true
  · have hm : m.createUser n = (.error (.database .duplicateUser), m) := by
      rw [MemoryStore.createUser, if_pos hc]
    have hd : db.createUser n = (.error (.database .createUser), db) := by
      simp only [Database.createUser, ht, Database.insertUserRow, h.writable, Bool.false_or, hany,
        hc, if_true, Bool.false_eq_true, if_false]
    exact agree_changed hm hd ⟨rfl, rfl⟩ h
  · have hm : m.createUser n = (.ok (n.toUser (m.lastUser + 1)),
        { m with
          users := m.users.insert (m.lastUser + 1) (n.toUser (m.lastUser + 1))
          lastUser := m.lastUser + 1 }) := by
      rw [MemoryStore.createUser, if_neg hc]
      rfl
    have hd : db.createUser n = (.ok (n.toUser (t.lastId + 1)),
        { db with users := some (t.insert (UserRow.ofNew n (t.lastId + 1))) }) := by
      simp only [Database.createUser, ht, Database.insertUserRow, h.writable, Bool.false_or, hany,
        hc, if_true, Bool.false_eq_true, if_false, UserRow.holds_ofNew n (t.lastId + 1) _]
    rw [hu.lastId_eq] at hd
    exact agree_changed hm hd rfl
      ⟨h.writable, ⟨_, rfl, hu.insert n (Bool.eq_false_iff.2 hc)⟩, h.groups, h.entities⟩

theorem agree_updateUser (h : Twins m db) (id : Int) {c : UserChanges} (hc : c.Plain) :
    Agree (StoreCall.perform (.memory m) (.updateUser id c))
      (StoreCall.perform (.database db) (.updateUser id c)) := by
  obtain ⟨t, ht, hu⟩ := h.users
  cases hv : m.users.get? id with
  | none =>
    have hm : m.updateUser id c = (.error (.auth .userNotFound), m) := by
      rw [MemoryStore.updateUser, hv]
    have hd : db.updateUser id c = (.error (.auth .userNotFound), db) := by
      simp only [Database.updateUser, ht, hu.rows.find?_key_eq_none hv]
    exact agree_changed hm hd ⟨rfl, rfl⟩ h
  | some u =>
    obtain ⟨r, hr, hf, rfl, hh⟩ := hu.rows.exists_find?_key hv
    have hm : m.updateUser r.id c =
        (.ok (c.apply u), { m with users := m.users.insert r.id (c.apply u) }) := by
      rw [MemoryStore.updateUser, hv]
    have hd : db.updateUser r.id c =
        (.ok (c.apply u), { db with users := some (t.replace (r.update c)) }) := by
      simp only [Database.updateUser, ht, hf, hh.times_eq, h.writable, Bool.false_eq_true, if_false,
        hh.update hc _]
    exact agree_changed hm hd rfl
      ⟨h.writable, ⟨_, rfl, hu.update hr hv hc⟩, h.groups, h.entities⟩

theorem agree_createGroup (h : Twins m db) (g : Group) :
    Agree (StoreCall.perform (.memory m) (.createGroup g))
      (StoreCall.perform (.database db) (.createGroup g)) := by
  obtain ⟨rows, hr, hg⟩ := h.groups
  cases hv : m.groups.get? g.name with
  | some g' =>
    have hm : m.createGroup g = (.error (.auth (.groupExists g.name)), m) := by
      rw [MemoryStore.createGroup, OrderedMap.contains, hv, Option.isSome_some, if_pos rfl]
    have hd : db.createGroup g = (.error (.auth (.groupExists g.name)), db) := by
      rw [Database.createGroup, h.findGroup_eq, MemoryStore.findGroup, hv]
    exact agree_changed hm hd ⟨rfl, rfl⟩ h
  | none =>
    have hm : m.createGroup g = (.ok g, { m with groups := m.groups.insert g.name g }) := by
      rw [MemoryStore.createGroup, OrderedMap.contains, hv, Option.isSome_none,
        if_neg Bool.false_ne_true]
    have hany : rows.any (fun s => s.name == (GroupRow.ofGroup g).name) = false :=
      (hg.any_key_eq g.name).trans (congrArg Option.isSome hv)
    have hd : db.createGroup g =
        (.ok g, { db with groups := some (rows ++ [GroupRow.ofGroup g]) }) := by
      have hread : (GroupRow.ofGroup g).toGroup = .ok g := GroupRow.holds_ofGroup g
      simp only [Database.createGroup, h.findGroup_eq, MemoryStore.findGroup, hv,
        Database.insertGroupRow, hr, h.writable, Bool.false_or, hany, Bool.false_eq_true, if_false,
        if_true, hread]
    exact agree_changed hm hd rfl ⟨h.writable, h.users,
      ⟨_, rfl, hg.append (r := GroupRow.ofGroup g) hv (GroupRow.holds_ofGroup g)⟩, h.entities⟩

theorem agree_updateGroup (h : Twins m db) (name : String) (u : GroupUpdate) :
    Agree (StoreCall.perform (.memory m) (.updateGroup name u))
      (StoreCall.perform (.database db) (.updateGroup name u)) := by
  obtain ⟨rows, hr, hg⟩ := h.groups
  cases hv : m.groups.get? name with
  | none =>
    have hm : m.updateGroup name u = (.error (.auth (.groupNotFound name)), m) := by
      rw [MemoryStore.updateGroup, hv]
    have hd : db.updateGroup name u = (.error (.auth (.groupNotFound name)), db) := by
      simp only [Database.updateGroup, hr, hg.find?_key_eq_none hv]
    exact agree_changed hm hd ⟨rfl, rfl⟩ h
  | some g =>
    obtain ⟨r, -, hf, rfl, hh⟩ := hg.exists_find?_key hv
    have hread : (r.update u).toGroup = .ok (g.update u) := hh.update u
    have hm : m.updateGroup r.name u =
        (.ok (g.update u), { m with groups := m.groups.insert r.name (g.update u) }) := by
      rw [MemoryStore.updateGroup, hv]
    have hd : db.updateGroup r.name u = (.ok (g.update u),
        { db with
          groups := some (rows.map fun s => if s.name == r.name then r.update u else s) }) := by
      simp only [Database.updateGroup, hr, hf, h.writable, Bool.false_eq_true, if_false, hread]
    exact agree_changed hm hd rfl ⟨h.writable, h.users,
      ⟨_, rfl, hg.replace (r := r.update u) hv hread⟩, h.entities⟩

theorem agree_deleteGroups (h : Twins m db) (names : List String) :
    Agree (StoreCall.perform (.memory m) (.deleteGroups names))
      (StoreCall.perform (.database db) (.deleteGroups names)) := by
  obtain ⟨rows, hr, hg⟩ := h.groups
  have hrest := hg.filter fun name => !names.contains name
  cases names with
  | nil =>
    have hall : m.groups.filter (fun name _ => !([] : List String).contains name) = m.groups :=
      OrderedMap.filter_true _
    have hm : ((.ok (m.deleteGroups []).1, (m.deleteGroups []).2) : Answer Nat × MemoryStore) =
        (.ok 0, m) := by
      simp only [MemoryStore.deleteGroups, hall, Nat.sub_self]
    exact agree_changed hm rfl rfl h
  | cons name names =>
    have hd : db.deleteGroups (name :: names) = (.ok (m.deleteGroups (name :: names)).1,
        { db with groups := some (rows.filter fun r => !(name :: names).contains r.name) }) := by
      simp only [Database.deleteGroups, List.isEmpty_cons, hr, h.writable, Bool.false_eq_true,
        if_false, MemoryStore.deleteGroups, hg.length_eq, hrest.length_eq]
    exact agree_changed (x := (.ok _, (m.deleteGroups (name :: names)).2)) rfl hd rfl
      ⟨h.writable, h.users, ⟨_, rfl, hrest⟩, h.entities⟩

theorem agree_upsertEntity (h : Twins m db) (e : EntityRules) :
    Agree (StoreCall.perform (.memory m) (.upsertEntity e))
      (StoreCall.perform (.database db) (.upsertEntity e)) := by
  obtain ⟨rows, hr, he⟩ := h.entities
  have hread := EntityRow.holds_ofRules e
  cases hv : m.entities.get? e.codeName with
  | some old =>
    have hany : rows.any (fun s => s.codeName == e.codeName) = true :=
      (he.any_key_eq e.codeName).trans (congrArg Option.isSome hv)
    have hd : db.upsertEntity e = (.ok (), { db with
        entities := some (rows.map fun s =>
          if s.codeName == e.codeName then EntityRow.ofRules e else s) }) := by
      simp only [Database.upsertEntity, hr, hany, h.writable, Bool.false_eq_true, if_false, if_true]
    exact agree_changed (x := (.ok (), m.upsertEntity e)) rfl hd rfl ⟨h.writable, h.users, h.groups,
      ⟨_, rfl, he.replace (r := EntityRow.ofRules e) hv hread⟩⟩
  | none =>
    have hany : rows.any (fun s => s.codeName == e.codeName) = false :=
      (he.any_key_eq e.codeName).trans (congrArg Option.isSome hv)
    have hany' : rows.any (fun s => s.codeName == (EntityRow.ofRules e).codeName) = false := hany
    have hd : db.upsertEntity e =
        (.ok (), { db with entities := some (rows ++ [EntityRow.ofRules e]) }) := by
      simp only [Database.upsertEntity, hr, hany, hany', Database.insertEntityRow, h.writable,
        Bool.false_or, Bool.false_eq_true, if_false, if_true]
    exact agree_changed (x := (.ok (), m.upsertEntity e)) rfl hd rfl ⟨h.writable, h.users, h.groups,
      ⟨_, rfl, he.append (r := EntityRow.ofRules e) hv hread⟩⟩

/-! ### Any calls -/

/-- A call is answered alike and leaves twins. -/
theorem agree_perform (h : Twins m db) {call : StoreCall} (hc : call.Plain) :
    Agree (call.perform (.memory m)) (call.perform (.database db)) := by
  cases call with
  | findById id => exact h.agree_asked .found rfl rfl (h.findById_eq id)
  | findByUsername name roles =>
    exact h.agree_asked .found rfl rfl (h.findByUsername_eq name roles)
  | findByEmail email => exact h.agree_asked .found rfl rfl (h.findByEmail_eq email)
  | createUser n => exact h.agree_createUser n
  | updateUser id c => exact h.agree_updateUser id hc
  | countUsers names => exact h.agree_asked .counts rfl rfl (h.countUsers_eq names)
  | findGroups names =>
    obtain ⟨gs, hgs, hmem⟩ := h.findGroups_eq names
    exact h.agree_asked .groups hmem rfl hgs
  | findGroup name => exact h.agree_asked .foundGroup rfl rfl (h.findGroup_eq name)
  | createGroup g => exact h.agree_createGroup g
  | updateGroup name u => exact h.agree_updateGroup name u
  | deleteGroups names => exact h.agree_deleteGroups names
  | findEntity name => exact h.agree_asked .foundEntity rfl rfl (h.findEntity_eq name)
  | listEntities =>
    obtain ⟨es, hes, hmem⟩ := h.listEntities_eq
    exact h.agree_asked .entities hmem rfl hes
  | upsertEntity e => exact h.agree_upsertEntity e

/-- Calls made one after the other are answered alike, and the stores are twins in the end. -/
theorem run_alike {calls : List StoreCall} (h : Twins m db) (hc : ∀ call ∈ calls, call.Plain) :
    List.Forall₂ Answer.Alike ((Store.memory m).run calls).1 ((Store.database db).run calls).1 ∧
      ∃ m' db', ((Store.memory m).run calls).2 = .memory m' ∧
        ((Store.database db).run calls).2 = .database db' ∧ Twins m' db' := by
  induction calls generalizing m db with
  | nil => exact ⟨.nil, m, db, rfl, rfl, h⟩
  | cons call calls ih =>
    obtain ⟨hcall, hcalls⟩ := List.forall_mem_cons.1 hc
    obtain ⟨halike, m₁, db₁, hm₁, hdb₁, h₁⟩ := h.agree_perform hcall
    obtain ⟨hrest, hend⟩ := ih h₁ hcalls
    simp only [Store.run, hm₁, hdb₁]
    exact ⟨.cons halike hrest, hend⟩

/-- A database whose tables were just created is the twin of an empty store. -/
theorem of_empty : Twins .empty (Database.empty.migrateUp (some 3)).2 := by
  have empty {ρ κ ν : Type} [Ord κ] (key : ρ → κ) (Holds : ρ → ν → Prop) :
      Mirrors key Holds [] .empty :=
    ⟨List.nodup_nil, List.forall_mem_nil _, fun k v hv => nomatch hv⟩
  have users : UserTwins .empty 0 .empty :=
    ⟨empty _ _, rfl, fun _ _ hu => absurd hu (Option.some_ne_none _).symm,
      fun _ _ _ _ hu => absurd hu (Option.some_ne_none _).symm⟩
  exact ⟨rfl, ⟨_, rfl, users⟩, ⟨[], rfl, empty _ _⟩, [], rfl, empty _ _⟩

/-- A customer registers and signs in, and a group is created and asked for twice. -/
theorem run_alike_registration :
    let calls : List StoreCall :=
      [.createUser (.customer (.email "a@b.c")),
        .updateUser 1 { login := some ⟨⟨1700000000, 5⟩, none⟩, emailVerified := some true },
        .findByUsername (.email "a@b.c") (some [.customer]), .createGroup ⟨"staff", none, [], true⟩,
        .findGroups ["staff", "staff"], .deleteGroups []]
    (∀ call ∈ calls, call.Plain) ∧
      List.Forall₂ Answer.Alike ((Store.memory .empty).run calls).1
        ((Store.database (Database.empty.migrateUp (some 3)).2).run calls).1 := by
  intro calls
  have hupdate : UserChanges.Plain
      { login := some ⟨⟨1700000000, 5⟩, none⟩, emailVerified := some true } := by
    intro s hs
    obtain rfl := Option.some.inj hs
    exact ⟨⟨by decide, by decide, by decide⟩, fun t ht => nomatch ht⟩
  have hcalls : ∀ call ∈ calls, call.Plain := by
    simp only [calls, List.forall_mem_cons, StoreCall.Plain, hupdate, true_and]
    exact List.forall_mem_nil _
  exact ⟨hcalls, (run_alike of_empty hcalls).1⟩

end Twins

end AuthCore
