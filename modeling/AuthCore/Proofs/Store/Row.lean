import AuthCore.Proofs.RuleSet
import AuthCore.Proofs.Time.Text
import AuthCore.Store.Row

/-!
# Rows and what they hold

A row holds a value if it reads as that value. The row that is made for a value holds it, and a row
that is updated holds the updated value, as long as the times of the update can be written
(`UserChanges.Plain`). Nothing else is asked of a row, so the columns of one that someone else wrote
may look different.
-/

namespace AuthCore

variable {α β : Type}

/-! ### Columns -/

theorem Answer.bind_eq_ok {x : Answer α} {f : α → Answer β} {b : β} :
    (x >>= f) = .ok b ↔ ∃ a, x = .ok a ∧ f a = .ok b := by
  cases x with
  | error e => exact iff_of_false nofun fun ⟨a, h, _⟩ => nomatch h
  | ok a => exact ⟨fun h => ⟨a, rfl, h⟩, fun ⟨a', h, hf⟩ => Except.ok.inj h ▸ hf⟩

theorem Answer.map_eq_ok {x : Answer α} {f : α → β} {b : β} :
    x.map f = .ok b ↔ ∃ a, x = .ok a ∧ f a = b := by
  cases x with
  | error e => exact iff_of_false nofun fun ⟨a, h, _⟩ => nomatch h
  | ok a => exact ⟨fun h => ⟨a, rfl, Except.ok.inj h⟩, fun ⟨a', h, hf⟩ => by rw [h, ← hf]; rfl⟩

theorem orFault_eq_ok {f : DatabaseFault} {o : Option α} {a : α} :
    orFault f o = .ok a ↔ o = some a := by
  cases o <;> simp [orFault]

theorem readColumn_eq_ok {f : Json → Option α} {column : String} {j : Json} {a : α} :
    readColumn f column j = .ok a ↔ f j = some a := by
  unfold readColumn
  cases f j <;> simp

theorem readTime_columnText {fault : DatabaseFault} {t : Option Timestamp}
    (h : ∀ x, t = some x → x.Plain) :
    readTime fault (t.map Timestamp.columnText) = .ok t := by
  cases t with
  | none => rfl
  | some x =>
    rw [Option.map_some, readTime, Timestamp.ofColumnText?_columnText (h x rfl)]
    rfl

@[simp] theorem Permission.list?_listJson (ps : List Permission) :
    Permission.list? (Permission.listJson ps) = some ps :=
  Json.list?_array_map fun p _ => p.ofJson?_toJson

@[simp] theorem Role.ofName?_name (r : Role) : ofName? r.name = some r := by
  cases r <;> rfl

theorem Role.eq_name_of_ofName? {s : String} {r : Role} (h : ofName? s = some r) : s = r.name := by
  unfold ofName? at h
  split at h
  · exact Option.some.inj h ▸ rfl
  · exact Option.some.inj h ▸ rfl
  · exact Option.some.inj h ▸ rfl
  · cases h

theorem Role.name_injective {r r' : Role} (h : r.name = r'.name) : r = r' := by
  have := congrArg ofName? h
  rwa [ofName?_name, ofName?_name, Option.some.injEq] at this

@[simp] theorem UserStatus.ofName?_name (s : UserStatus) : ofName? s.name = some s := by
  cases s <;> rfl

@[simp] theorem LoginType.ofName?_name (t : LoginType) : ofName? t.name = some t := by
  cases t <;> rfl

/-! ### Users -/

/-- The times of an update can be written. -/
def UserChanges.Plain (c : UserChanges) : Prop :=
  ∀ s, c.login = some s → s.moment.Plain ∧ ∀ t, s.previous = some t → t.Plain

namespace UserRow

variable {r : UserRow} {u : User}

/-- A row reads as a user. -/
def Holds (r : UserRow) (u : User) : Prop := ∀ fault, r.toUser fault = .ok u

theorem times_eq_ok {fault : DatabaseFault} {ts : Option Timestamp × Option Timestamp} :
    r.times fault = .ok ts ↔
      readTime fault r.loginDatetime = .ok ts.1 ∧
        readTime fault r.lastLoginDatetime = .ok ts.2 := by
  simp only [times, Answer.bind_eq_ok]
  constructor
  · rintro ⟨login, hlogin, last, hlast, hts⟩
    obtain rfl := Except.ok.inj hts
    exact ⟨hlogin, hlast⟩
  · rintro ⟨hlogin, hlast⟩
    exact ⟨_, hlogin, _, hlast, rfl⟩

theorem toUser_eq_ok {fault : DatabaseFault} : r.toUser fault = .ok u ↔
    readTime fault r.loginDatetime = .ok u.loginDatetime ∧
    readTime fault r.lastLoginDatetime = .ok u.lastLoginDatetime ∧
    Role.ofName? r.role = some u.role ∧ UserStatus.ofName? r.userStatus = some u.userStatus ∧
    LoginType.ofName? r.loginType = some u.loginType ∧
    Json.list? Json.string? r.groups = some u.groups ∧
    Permission.list? r.permissions = some u.permissions ∧
    u = { u with
      id := r.id, email := r.email, mobileNumber := r.mobileNumber,
      hashedPassword := r.hashedPassword, firstName := r.firstName, lastName := r.lastName,
      avatar := r.avatar, isEnable := r.isEnable, isBlocked := r.isBlocked,
      isForceLogin := r.isForceLogin, isForceChangePassword := r.isForceChangePassword,
      emailVerified := r.emailVerified, phoneVerified := r.phoneVerified } := by
  simp only [toUser, Answer.bind_eq_ok, orFault_eq_ok, readColumn_eq_ok]
  constructor
  · rintro ⟨ts, hts, role, hrole, status, hstatus, type, htype, groups, hgroups, permissions,
      hpermissions, hu⟩
    obtain rfl := Except.ok.inj hu
    obtain ⟨hlogin, hlast⟩ := times_eq_ok.1 hts
    exact ⟨hlogin, hlast, hrole, hstatus, htype, hgroups, hpermissions, rfl⟩
  · rintro ⟨hlogin, hlast, hrole, hstatus, htype, hgroups, hpermissions, hu⟩
    exact ⟨(_, _), times_eq_ok.2 ⟨hlogin, hlast⟩, _, hrole, _, hstatus, _, htype, _, hgroups, _,
      hpermissions, congrArg Except.ok hu.symm⟩

theorem holds_ofNew (n : NewUser) (id : Int) : (ofNew n id).Holds (n.toUser id) := fun _ =>
  toUser_eq_ok.2 ⟨rfl, rfl, Role.ofName?_name _, UserStatus.ofName?_name _,
    LoginType.ofName?_name _, Json.list?_strings _, Permission.list?_listJson _, rfl⟩

namespace Holds

theorem eq (h : r.Holds u) : u = { u with
    id := r.id, email := r.email, mobileNumber := r.mobileNumber,
    hashedPassword := r.hashedPassword, firstName := r.firstName, lastName := r.lastName,
    avatar := r.avatar, isEnable := r.isEnable, isBlocked := r.isBlocked,
    isForceLogin := r.isForceLogin, isForceChangePassword := r.isForceChangePassword,
    emailVerified := r.emailVerified, phoneVerified := r.phoneVerified } :=
  (toUser_eq_ok.1 (h .createUser)).2.2.2.2.2.2.2

theorem id_eq (h : r.Holds u) : u.id = r.id := congrArg User.id h.eq

theorem email_eq (h : r.Holds u) : u.email = r.email := congrArg User.email h.eq

theorem mobileNumber_eq (h : r.Holds u) : u.mobileNumber = r.mobileNumber :=
  congrArg User.mobileNumber h.eq

theorem times_eq (h : r.Holds u) (fault : DatabaseFault) :
    r.times fault = .ok (u.loginDatetime, u.lastLoginDatetime) := by
  obtain ⟨hlogin, hlast, -⟩ := toUser_eq_ok.1 (h fault)
  exact times_eq_ok.2 ⟨hlogin, hlast⟩

theorem role_eq (h : r.Holds u) : r.role = u.role.name :=
  Role.eq_name_of_ofName? (toUser_eq_ok.1 (h .createUser)).2.2.1

theorem groups_eq (h : r.Holds u) : Json.list? Json.string? r.groups = some u.groups :=
  (toUser_eq_ok.1 (h .createUser)).2.2.2.2.2.1

/-- An updated row holds the updated user. -/
theorem update (h : r.Holds u) {c : UserChanges} (hc : c.Plain) :
    (r.update c).Holds (c.apply u) := by
  intro fault
  obtain ⟨hlogin, hlast, hrole, hstatus, htype, hgroups, hpermissions, hu⟩ :=
    toUser_eq_ok.1 (h fault)
  refine toUser_eq_ok.2 ⟨?_, ?_, hrole, hstatus, htype, hgroups, hpermissions, ?_⟩
  · cases hs : c.login with
    | none => simpa only [UserRow.update, UserChanges.apply, hs] using hlogin
    | some s =>
      have hm : ∀ x, some s.moment = some x → x.Plain := fun x hx =>
        Option.some.inj hx ▸ (hc s hs).1
      simp only [UserRow.update, UserChanges.apply, hs]
      exact readTime_columnText hm
  · cases hs : c.login with
    | none => simpa only [UserRow.update, UserChanges.apply, hs] using hlast
    | some s =>
      simpa only [UserRow.update, UserChanges.apply, hs] using readTime_columnText (hc s hs).2
  · rw [hu]
    rfl

/-! What the rows of users are searched by says the same of the users. -/

theorem hasUsername_eq (h : r.Holds u) (name : Username) :
    r.hasUsername name = u.hasUsername name := by
  cases name with
  | email e => rw [hasUsername, User.hasUsername, h.email_eq]
  | phone p => rw [hasUsername, User.hasUsername, h.mobileNumber_eq]

theorem hasRole_eq (h : r.Holds u) (roles : Option (List Role)) :
    r.hasRole roles = Role.allowed roles u.role := by
  cases roles with
  | none => rfl
  | some roles =>
    rw [hasRole, Role.allowed, h.role_eq, Bool.eq_iff_iff, List.contains_iff_mem,
      List.contains_iff_mem, List.mem_map]
    constructor
    · rintro ⟨role, hrole, hname⟩
      exact Role.name_injective hname ▸ hrole
    · exact fun hrole => ⟨_, hrole, rfl⟩

end Holds

end UserRow

/-! ### Groups and the catalog -/

namespace GroupRow

variable {r : GroupRow} {g : Group}

/-- A row reads as a group. -/
def Holds (r : GroupRow) (g : Group) : Prop := r.toGroup = .ok g

theorem toGroup_eq_ok : r.toGroup = .ok g ↔ Permission.list? r.permissions = some g.permissions ∧
    g = { g with name := r.name, description := r.description, isEnable := r.isEnable } := by
  simp only [toGroup, Answer.map_eq_ok, readColumn_eq_ok]
  constructor
  · rintro ⟨ps, hps, rfl⟩
    exact ⟨hps, rfl⟩
  · rintro ⟨hps, hg⟩
    exact ⟨_, hps, hg.symm⟩

theorem holds_ofGroup (g : Group) : (ofGroup g).Holds g :=
  toGroup_eq_ok.2 ⟨Permission.list?_listJson _, rfl⟩

/-- An updated row holds the updated group. -/
theorem Holds.update (h : r.Holds g) (u : GroupUpdate) : (r.update u).Holds (g.update u) := by
  obtain ⟨hpermissions, hg⟩ := toGroup_eq_ok.1 h
  refine toGroup_eq_ok.2 ⟨?_, ?_⟩
  · cases hu : u.permissions with
    | none => simpa only [GroupRow.update, Group.update, hu, Option.getD_none] using hpermissions
    | some ps =>
      simp only [GroupRow.update, Group.update, hu, Option.getD_some]
      exact Permission.list?_listJson ps
  · rw [hg]
    rfl

end GroupRow

namespace EntityRow

variable {r : EntityRow} {e : EntityRules}

/-- A row reads as a catalog entry. -/
def Holds (r : EntityRow) (e : EntityRules) : Prop := r.toRules = .ok e

theorem holds_ofRules (e : EntityRules) : (ofRules e).Holds e := by
  rw [Holds, toRules, ofRules, readColumn, RuleSet.ofJson?_toJson]
  rfl

end EntityRow

end AuthCore
