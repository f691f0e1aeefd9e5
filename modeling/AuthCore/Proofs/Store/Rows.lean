import AuthCore.Proofs.Store.Sound

/-!
# The rows of a store

What a store keeps of a user, whether it can read it back or not (`Store.row?`). The users of a
memory store are taken as the rows that a database would keep of them. An update writes one row at
most, and a new user gets a row under the number behind the last one (`Store.Adds`). What is found
in a store is read off its rows.
-/

namespace AuthCore

/-! ### Rows and users -/

/-- The parts of a user that say who it is and what it may do are the same. -/
def User.SameStanding (u u' : User) : Prop :=
  u' = { u with
    hashedPassword := u'.hashedPassword, isForceLogin := u'.isForceLogin,
    isForceChangePassword := u'.isForceChangePassword, emailVerified := u'.emailVerified,
    phoneVerified := u'.phoneVerified, loginDatetime := u'.loginDatetime,
    lastLoginDatetime := u'.lastLoginDatetime }

namespace UserRow

variable {r r' r'' : UserRow} {u u' : User} {c : UserChanges}

/-- The row of a user. -/
def ofUser (u : User) : UserRow where
  id := u.id
  email := u.email
  mobileNumber := u.mobileNumber
  hashedPassword := u.hashedPassword
  firstName := u.firstName
  lastName := u.lastName
  avatar := u.avatar
  role := u.role.name
  groups := .strings u.groups
  permissions := Permission.listJson u.permissions
  isEnable := u.isEnable
  isBlocked := u.isBlocked
  isForceLogin := u.isForceLogin
  isForceChangePassword := u.isForceChangePassword
  emailVerified := u.emailVerified
  phoneVerified := u.phoneVerified
  userStatus := u.userStatus.name
  loginType := u.loginType.name
  loginDatetime := u.loginDatetime.map Timestamp.columnText
  lastLoginDatetime := u.lastLoginDatetime.map Timestamp.columnText

theorem ofUser_toUser (n : NewUser) (id : Int) : ofUser (n.toUser id) = ofNew n id := rfl

theorem ofUser_apply (c : UserChanges) (u : User) : ofUser (c.apply u) = (ofUser u).update c := by
  rw [ofUser, update, UserChanges.apply]
  cases c.login <;> rfl

/-- A row says what a user is, apart from the times of the sign-ins. These may be such that a
database cannot read them back. -/
def Describes (r : UserRow) (u : User) : Prop :=
  { r with loginDatetime := none, lastLoginDatetime := none }.Holds
    { u with loginDatetime := none, lastLoginDatetime := none }

theorem describes_ofUser (u : User) : (ofUser u).Describes u := fun _ =>
  toUser_eq_ok.2 ⟨rfl, rfl, Role.ofName?_name _, UserStatus.ofName?_name _,
    LoginType.ofName?_name _, Json.list?_strings _, Permission.list?_listJson _, rfl⟩

theorem Holds.describes (h : r.Holds u) : r.Describes u := by
  intro fault
  obtain ⟨-, -, hrole, hstatus, htype, hgroups, hpermissions, hu⟩ := toUser_eq_ok.1 (h fault)
  refine toUser_eq_ok.2 ⟨rfl, rfl, hrole, hstatus, htype, hgroups, hpermissions, ?_⟩
  rw [hu]

namespace Describes

theorem email_eq (h : r.Describes u) : u.email = r.email := congrArg User.email h.eq

theorem mobileNumber_eq (h : r.Describes u) : u.mobileNumber = r.mobileNumber :=
  congrArg User.mobileNumber h.eq

theorem isEnable_eq (h : r.Describes u) : u.isEnable = r.isEnable := congrArg User.isEnable h.eq

theorem isBlocked_eq (h : r.Describes u) : u.isBlocked = r.isBlocked :=
  congrArg User.isBlocked h.eq

theorem isForceLogin_eq (h : r.Describes u) : u.isForceLogin = r.isForceLogin :=
  congrArg User.isForceLogin h.eq

theorem emailVerified_eq (h : r.Describes u) : u.emailVerified = r.emailVerified :=
  congrArg User.emailVerified h.eq

theorem phoneVerified_eq (h : r.Describes u) : u.phoneVerified = r.phoneVerified :=
  congrArg User.phoneVerified h.eq

theorem hasUsername_eq (h : r.Describes u) (name : Username) :
    r.hasUsername name = u.hasUsername name := by
  cases name with
  | email e => exact Holds.hasUsername_eq h (.email e)
  | phone p => exact Holds.hasUsername_eq h (.phone p)

theorem hasRole_eq (h : r.Describes u) (roles : Option (List Role)) :
    r.hasRole roles = Role.allowed roles u.role := Holds.hasRole_eq h roles

end Describes

/-- The parts of a row that say who the user is and what the user may do are the same. -/
def SameStanding (r r' : UserRow) : Prop :=
  r' = { r with
    hashedPassword := r'.hashedPassword, isForceLogin := r'.isForceLogin,
    isForceChangePassword := r'.isForceChangePassword, emailVerified := r'.emailVerified,
    phoneVerified := r'.phoneVerified, loginDatetime := r'.loginDatetime,
    lastLoginDatetime := r'.lastLoginDatetime }

namespace SameStanding

theorem refl (r : UserRow) : r.SameStanding r := rfl

theorem update (r : UserRow) (c : UserChanges) : r.SameStanding (r.update c) := rfl

theorem trans (h : r.SameStanding r') (h' : r'.SameStanding r'') : r.SameStanding r'' := by
  rw [SameStanding] at h h' ⊢
  rw [h] at h'
  exact h'

theorem hasUsername_eq (h : r.SameStanding r') (name : Username) :
    r'.hasUsername name = r.hasUsername name := by
  rw [h]
  cases name <;> rfl

end SameStanding

/-- Two rows with a username in common cannot stand in one table. -/
theorem clashes_of_hasUsername {name : Username} (h : r.hasUsername name = true)
    (h' : r'.hasUsername name = true) : r.clashes r' = true := by
  cases name with
  | email e =>
    have he : r.email = some e := beq_iff_eq.1 h
    have he' : r'.email = some e := beq_iff_eq.1 h'
    simp [clashes, he, he']
  | phone p =>
    have hp : r.mobileNumber = some p := beq_iff_eq.1 h
    have hp' : r'.mobileNumber = some p := beq_iff_eq.1 h'
    simp [clashes, hp, hp']

end UserRow
/-! ### Rows in a store -/

namespace Store

variable {s s' : Store} {id k : Int} {c : UserChanges} {n : NewUser} {u : User} {r r' : UserRow}
  {name : Username}

/-- The row of the user with a number. -/
def row? (s : Store) (id : Int) : Option UserRow :=
  match s with
  | memory m => (m.users.get? id).map .ofUser
  | database db => db.users.bind fun t => t.rows.find? fun r => r.id == id

/-- The last number that was given to a user. -/
def lastNumber : Store → Int
  | memory m => m.lastUser
  | database db => (db.users.map (·.lastId)).getD 0

/-- Whoever is found by a number has a row. -/
theorem row?_of_findById (h : s.findById id = .ok (some u)) :
    ∃ r, s.row? id = some r ∧ r.Describes u := by
  cases s with
  | memory m =>
    have hu : m.users.get? id = some u := Except.ok.inj h
    exact ⟨.ofUser u, by rw [row?, hu, Option.map_some], UserRow.describes_ofUser u⟩
  | database db =>
    obtain ⟨t, r, ht, hr, hu⟩ := Database.findUser_eq_ok_some.1 h
    exact ⟨r, by rw [row?, ht, Option.bind_some, hr], hu.describes⟩

theorem hasUsername_of_findByUsername {roles : Option (List Role)}
    (h : s.findByUsername name roles = .ok (some u)) : u.hasUsername name = true := by
  cases s with
  | memory m =>
    have hu : m.findByUsername name roles = some u := Except.ok.inj h
    have htest := List.find?_some hu
    exact (Bool.and_eq_true_iff.1 htest).1
  | database db =>
    obtain ⟨t, r, -, hr, hu⟩ := Database.findUser_eq_ok_some.1 h
    have htest := List.find?_some hr
    rw [← hu.hasUsername_eq]
    exact (Bool.and_eq_true_iff.1 htest).1

/-- Where nobody is found by a username and a filter of roles, no row fits both. -/
theorem unfit_of_findByUsername {roles : Option (List Role)}
    (h : s.findByUsername name roles = .ok none) (hr : s.row? id = some r) :
    (r.hasUsername name && r.hasRole roles) = false := by
  cases s with
  | memory m =>
    obtain ⟨u, hu, rfl⟩ := Option.map_eq_some_iff.1 hr
    have htest := List.find?_eq_none.1 (Except.ok.inj h) u (OrderedMap.mem_values_iff.2 ⟨id, hu⟩)
    have hdescribes := UserRow.describes_ofUser u
    rw [hdescribes.hasUsername_eq, hdescribes.hasRole_eq]
    exact Bool.eq_false_iff.2 htest
  | database db =>
    obtain ⟨t, ht, hnone⟩ := Database.findUser_eq_ok_none.1 h
    rw [row?, ht, Option.bind_some] at hr
    exact Bool.eq_false_iff.2 (List.find?_eq_none.1 hnone r (List.mem_of_find?_eq_some hr))

/-- Whoever is found by a username has a row with it. -/
theorem Sound.row?_of_findByUsername (hs : s.Sound) {roles : Option (List Role)}
    (h : s.findByUsername name roles = .ok (some u)) :
    ∃ r, s.row? u.id = some r ∧ r.Describes u ∧ r.hasUsername name = true := by
  obtain ⟨r, hr, hu⟩ := row?_of_findById (hs.findById_of_findByUsername h)
  exact ⟨r, hr, hu, (hu.hasUsername_eq name).trans (hasUsername_of_findByUsername h)⟩

/-- The row of whoever is found by a username. -/
theorem Sound.of_findByUsername (hs : s.Sound) {roles : Option (List Role)}
    (h : s.findByUsername name roles = .ok (some u)) (hr : s.row? u.id = some r) :
    r.Describes u ∧ r.hasUsername name = true := by
  obtain ⟨r', hr', hdescribes, hname⟩ := hs.row?_of_findByUsername h
  obtain rfl := Option.some.inj (hr'.symm.trans hr)
  exact ⟨hdescribes, hname⟩

/-- An e-mail address is looked for as a username. -/
theorem findByEmail_eq (s : Store) (email : String) :
    s.findByEmail email = s.findByUsername (.email email) none := by
  cases s with
  | memory m =>
    simp only [findByEmail, findByUsername, MemoryStore.findByEmail, MemoryStore.findByUsername,
      User.hasUsername, Role.allowed, Bool.and_true]
  | database db =>
    simp only [findByEmail, findByUsername, Database.findByEmail, Database.findByUsername,
      UserRow.hasUsername, UserRow.hasRole, Bool.and_true, Username.value]

/-- A row stands under its number, and no number is beyond the last one. -/
theorem Sound.of_row? (hs : s.Sound) (h : s.row? id = some r) : r.id = id ∧ id ≤ s.lastNumber := by
  cases s with
  | memory m =>
    obtain ⟨u, hu, rfl⟩ := Option.map_eq_some_iff.1 h
    exact hs id u hu
  | database db =>
    obtain ⟨t, ht, hr⟩ := Option.bind_eq_some_iff.1 h
    obtain rfl := UserTable.id_of_find? hr
    refine ⟨rfl, ?_⟩
    rw [lastNumber, ht]
    exact (hs t ht).2 r (List.mem_of_find?_eq_some hr)

namespace SameUsers

theorem row?_eq (h : s.SameUsers s') (id : Int) : s'.row? id = s.row? id := by
  cases s <;> cases s'
  case memory.memory => rw [row?, row?, h.1]
  case database.database => rw [row?, row?, h.1]
  all_goals exact h.elim

theorem lastNumber_eq (h : s.SameUsers s') : s'.lastNumber = s.lastNumber := by
  cases s <;> cases s'
  case memory.memory => exact h.2
  case database.database => rw [lastNumber, lastNumber, h.1]
  all_goals exact h.elim

end SameUsers

/-- An update writes the row of its user. It writes nothing if no such user is found or if the store
cannot be written. -/
theorem row?_updateUser (s : Store) (id : Int) (c : UserChanges) :
    ((s.IsWritable → ∀ u, s.findById id ≠ .ok (some u)) ∧
        ∀ k, (s.updateUser id c).2.row? k = s.row? k) ∨
      ∃ r, s.row? id = some r ∧ ∀ k, (s.updateUser id c).2.row? k =
        if k = id then some (r.update c) else s.row? k := by
  cases s with
  | memory m =>
    simp only [updateUser, ofMemory, MemoryStore.updateUser]
    split
    next hn =>
      refine .inl ⟨fun _ u hu => ?_, fun _ => rfl⟩
      cases hn.symm.trans (Except.ok.inj hu)
    next u hu =>
      refine .inr ⟨.ofUser u, by rw [row?, hu, Option.map_some], fun k => ?_⟩
      rw [row?, OrderedMap.get?_insert, row?]
      split
      · rw [Option.map_some, UserRow.ofUser_apply]
      · rfl
  | database db =>
    rw [updateUser, ofDatabase]
    rcases db.updateUser_cases id c with ⟨e, hx, hwhy⟩ | ⟨t, r, ht, hr, hx⟩
    · rw [hx]
      refine .inl ⟨fun hw => ?_, fun _ => rfl⟩
      exact hwhy.resolve_left fun hro => Bool.false_ne_true (hw.symm.trans hro)
    · rw [hx]
      refine .inr ⟨r, by rw [row?, ht, Option.bind_some, hr], fun k => ?_⟩
      obtain rfl := UserTable.id_of_find? hr
      rw [row?, Option.bind_some, row?, ht, Option.bind_some]
      exact UserTable.find?_replace (r := r.update c) hr

/-- Whoever has been updated has the updated row. -/
theorem row?_of_updateUser (h : s.updateUser id c = (.ok u, s')) :
    ∃ r, s.row? id = some r ∧ s'.row? id = some (r.update c) ∧ (r.update c).Describes u := by
  cases s with
  | memory m =>
    simp only [updateUser, ofMemory, MemoryStore.updateUser] at h
    split at h
    next => cases h
    next v hv =>
      cases h
      refine ⟨.ofUser v, by rw [row?, hv, Option.map_some], ?_, ?_⟩
      · rw [row?, OrderedMap.get?_insert, if_pos rfl, Option.map_some, UserRow.ofUser_apply]
      · rw [← UserRow.ofUser_apply]
        exact UserRow.describes_ofUser _
  | database db =>
    rcases db.updateUser_cases id c with ⟨e, hx, -⟩ | ⟨t, r, ht, hr, hx⟩
    · rw [updateUser, hx] at h
      cases h
    · rw [updateUser, hx] at h
      obtain ⟨hu, rfl⟩ := Prod.mk.inj h
      obtain rfl := UserTable.id_of_find? hr
      refine ⟨r, by rw [row?, ht, Option.bind_some, hr], ?_, ?_⟩
      · rw [row?, Option.bind_some, UserTable.find?_replace (r := r.update c) hr]
        exact if_pos rfl
      · exact (UserRow.holds_of_toUser hu).describes

theorem lastNumber_updateUser (s : Store) (id : Int) (c : UserChanges) :
    (s.updateUser id c).2.lastNumber = s.lastNumber := by
  cases s with
  | memory m =>
    simp only [updateUser, ofMemory, MemoryStore.updateUser]
    split
    next => rfl
    next => rfl
  | database db =>
    rcases db.updateUser_cases id c with ⟨e, hx, -⟩ | ⟨t, r, ht, -, hx⟩
    · simp only [updateUser, ofDatabase, hx]
    · simp only [updateUser, ofDatabase, hx, lastNumber, ht, Option.map_some, Option.getD_some,
        UserTable.replace]

/-- What a new user does to a store: it gets a row of its own under the number behind the last one,
and has no username that somebody else has. -/
structure Adds (n : NewUser) (s s' : Store) : Prop where
  fresh : s.row? (s.lastNumber + 1) = none
  lastNumber : s'.lastNumber = s.lastNumber + 1
  row? : ∀ k, s'.row? k = if k = s.lastNumber + 1 then some (.ofNew n k) else s.row? k
  free : ∀ k r name, s.row? k = some r → r.hasUsername name = true →
    (UserRow.ofNew n (s.lastNumber + 1)).hasUsername name = false

theorem Sound.row?_lastNumber (hs : s.Sound) : s.row? (s.lastNumber + 1) = none := by
  cases h : s.row? (s.lastNumber + 1) with
  | none => rfl
  | some r =>
    have := (hs.of_row? h).2
    omega

theorem clashes_of_hasUsername (h : (UserRow.ofNew n id).hasUsername name = true)
    (hu : u.hasUsername name = true) : MemoryStore.clashes n u = true := by
  cases name with
  | email e =>
    have he : n.email = some e := beq_iff_eq.1 h
    have he' : u.email = some e := beq_iff_eq.1 hu
    simp [MemoryStore.clashes, he, he']
  | phone p =>
    have hp : n.mobileNumber = some p := beq_iff_eq.1 h
    have hp' : u.mobileNumber = some p := beq_iff_eq.1 hu
    simp [MemoryStore.clashes, hp, hp']

theorem free_of_createUser {db db' : Database} {t : UserTable} (ht : db.users = some t)
    (h : db.createUser n = (.ok u, db')) :
    t.rows.any (UserRow.ofNew n (t.lastId + 1)).clashes = false := by
  cases hc : t.rows.any (UserRow.ofNew n (t.lastId + 1)).clashes with
  | false => rfl
  | true =>
    rw [Database.createUser, ht] at h
    simp only [Database.insertUserRow, ht, hc, Bool.or_true, if_true, Bool.false_eq_true,
      if_false] at h
    cases h

/-- Creating a user adds a row. -/
theorem Sound.adds (hs : s.Sound) (h : s.createUser n = (.ok u, s')) :
    u = n.toUser (s.lastNumber + 1) ∧ s.Adds n s' := by
  have hfresh := hs.row?_lastNumber
  cases s with
  | memory m =>
    simp only [Store.createUser, ofMemory, MemoryStore.createUser] at h
    split at h
    next => cases h
    next hfree =>
      cases h
      refine ⟨rfl, hfresh, rfl, fun k => ?_, fun k r name hr hname => ?_⟩
      · show ((m.users.insert (m.lastUser + 1) (n.toUser (m.lastUser + 1))).get? k).map
            UserRow.ofUser =
          if k = m.lastUser + 1 then _ else _
        rw [OrderedMap.get?_insert]
        split
        next hk => rw [hk, Option.map_some, UserRow.ofUser_toUser]
        next => rfl
      · obtain ⟨v, hv, rfl⟩ := Option.map_eq_some_iff.1 hr
        rw [(UserRow.describes_ofUser v).hasUsername_eq] at hname
        refine Bool.eq_false_iff.2 fun hn => hfree (List.any_eq_true.2 ⟨v, ?_, ?_⟩)
        · exact OrderedMap.mem_values_iff.2 ⟨k, hv⟩
        · exact clashes_of_hasUsername hn hname
  | database db =>
    rcases db.createUser_cases n with ⟨e, hx, -⟩ | ⟨t, ht, -, hnone, hx⟩
    · rw [Store.createUser, hx] at h
      cases h
    · have hfree := free_of_createUser ht hx
      rw [Store.createUser, hx] at h
      cases h
      have hlast : (database db).lastNumber = t.lastId := by rw [lastNumber, ht]; rfl
      rw [hlast] at hfresh ⊢
      refine ⟨rfl, hlast ▸ hfresh, ?_, fun k => ?_, fun k r name hr hname => ?_⟩
      · rw [hlast]
        exact max_eq_right (Int.le_add_one le_rfl)
      · rw [hlast, row?, Option.bind_some, row?, ht, Option.bind_some,
          UserTable.find?_insert (r := .ofNew n (t.lastId + 1)) hnone]
        show (if k = t.lastId + 1 then _ else _) = _
        split
        next hk => rw [hk]
        next => rfl
      · rw [row?, ht, Option.bind_some] at hr
        refine Bool.eq_false_iff.2 fun hn => ?_
        have hc := List.any_eq_false.1 hfree r (List.mem_of_find?_eq_some hr)
        exact hc (UserRow.clashes_of_hasUsername (hlast ▸ hn) hname)

end Store

end AuthCore
