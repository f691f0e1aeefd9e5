import AuthCore.Proofs.Account.Faults
import AuthCore.Proofs.Account.Identity

/-!
# Coming without the password

Who comes with a password is looked for by username and role at once, and the password is checked
before anything else about the user. So nobody learns anything without the password of an account:
whether there is no such user, or one of another role, or one who is disabled, blocked or has proved
nothing, the answer is that there is no such user, and nothing happens (`Store.TurnsAway`).

That answer is kept for them. Whoever has the password gets another one, be it another error.
-/

namespace AuthCore

namespace Store

variable {s : Store} {name : Username} {roles : Option (List Role)} {password : String} {u : User}
  {id : Int} {c : UserChanges}

/-- Whoever has a username can be read: a database has its table of users, and the rows with the
username read as users. -/
def Reads (name : Username) : Store → Prop
  | memory _ => True
  | database db => ∃ t, db.users = some t ∧
    ∀ r ∈ t.rows, r.hasUsername name = true → ∃ u, r.Holds u

/-- Nobody whom a username and a filter of roles fit has a password. -/
def TurnsAway (s : Store) (name : Username) (roles : Option (List Role)) (password : String) :
    Prop :=
  ∀ id u, s.findById id = .ok (some u) → u.hasUsername name = true →
    Role.allowed roles u.role = true → Accounts.passwordFits password u.hashedPassword = false

/-- Whoever has a username is the one account that it leads to: users have numbers and usernames of
their own, and whoever has this one can be read. -/
structure Resolves (s : Store) (name : Username) : Prop where
  sound : s.Sound
  unique : s.Unique
  reads : s.Reads name

/-! ### Looking for a username and a role -/

/-- To look for a username that can be read is no error. -/
theorem Reads.exists_findByUsername (h : s.Reads name) (roles : Option (List Role)) :
    ∃ o, s.findByUsername name roles = .ok o := by
  cases s with
  | memory m => exact ⟨_, rfl⟩
  | database db =>
    obtain ⟨t, ht, hrows⟩ := h
    cases hfind : t.rows.find? fun r => r.hasUsername name && r.hasRole roles with
    | none => exact ⟨none, Database.findUser_eq_ok_none.2 ⟨t, ht, hfind⟩⟩
    | some r =>
      have htest := List.find?_some hfind
      obtain ⟨u, hu⟩ := hrows r (List.mem_of_find?_eq_some hfind) (Bool.and_eq_true_iff.1 htest).1
      exact ⟨some u, Database.findUser_eq_ok_some.2 ⟨t, r, ht, hfind, hu⟩⟩

/-- Whoever is found by a username and a filter of roles has a role that the filter lets pass. -/
theorem allowed_of_findByUsername (h : s.findByUsername name roles = .ok (some u)) :
    Role.allowed roles u.role = true := by
  cases s with
  | memory m =>
    have hu : m.findByUsername name roles = some u := Except.ok.inj h
    have htest := List.find?_some hu
    exact (Bool.and_eq_true_iff.1 htest).2
  | database db =>
    obtain ⟨t, r, -, hr, hu⟩ := Database.findUser_eq_ok_some.1 h
    have htest := List.find?_some hr
    rw [← hu.hasRole_eq]
    exact (Bool.and_eq_true_iff.1 htest).2

/-- Where nobody is found by a username and a filter of roles, nobody fits both. -/
theorem allowed_of_absent (h : s.findByUsername name roles = .ok none)
    (hu : s.findById id = .ok (some u)) (hname : u.hasUsername name = true) :
    Role.allowed roles u.role = false := by
  obtain ⟨r, hr, hdescribes⟩ := row?_of_findById hu
  have hunfit := unfit_of_findByUsername h hr
  rw [hdescribes.hasUsername_eq, hdescribes.hasRole_eq, hname] at hunfit
  exact hunfit

/-- Two users who are found and have a username in common are the same one. -/
theorem Unique.eq_of_found (hu : s.Unique) {v : User} {k : Int}
    (hfound : s.findById id = .ok (some u)) (hname : u.hasUsername name = true)
    (hfound' : s.findById k = .ok (some v)) (hname' : v.hasUsername name = true) : u = v := by
  obtain ⟨r, hr, hdescribes⟩ := row?_of_findById hfound
  obtain ⟨r', hr', hdescribes'⟩ := row?_of_findById hfound'
  obtain rfl := hu name id k r r' hr hr' ((hdescribes.hasUsername_eq name).trans hname)
    ((hdescribes'.hasUsername_eq name).trans hname')
  exact Option.some.inj (Except.ok.inj (hfound.symm.trans hfound'))

/-- A store turns a password away if nobody is found, or somebody whose password it is not. -/
theorem turnsAway_iff (hs : s.Sound) (hu : s.Unique) {o : Option User}
    (ho : s.findByUsername name roles = .ok o) : s.TurnsAway name roles password ↔
      ∀ u, o = some u → Accounts.passwordFits password u.hashedPassword = false := by
  constructor
  · rintro h u rfl
    exact h u.id u (hs.findById_of_findByUsername ho) (hasUsername_of_findByUsername ho)
      (allowed_of_findByUsername ho)
  · intro h id u hfound hname hrole
    cases o with
    | none => cases hrole.symm.trans (allowed_of_absent ho hfound hname)
    | some v =>
      obtain rfl := hu.eq_of_found hfound hname (hs.findById_of_findByUsername ho)
        (hasUsername_of_findByUsername ho)
      exact h u rfl

/-- Where there is one user, that one is found. -/
theorem eq_of_single {v : User} (h : (memory (MemoryStore.empty.insertUser u)).findById id =
    .ok (some v)) : id = u.id ∧ v = u := by
  have hget : (OrderedMap.empty.insert u.id u).get? id = some v := Except.ok.inj h
  rw [OrderedMap.get?_insert] at hget
  split at hget
  next hid => exact ⟨hid, (Option.some.inj hget).symm⟩
  next => cases hget

theorem unique_single (u : User) : (memory (MemoryStore.empty.insertUser u)).Unique := by
  have hid (id : Int) (r : UserRow)
      (hr : (memory (MemoryStore.empty.insertUser u)).row? id = some r) : id = u.id := by
    obtain ⟨v, hv, -⟩ := Option.map_eq_some_iff.1 hr
    exact (eq_of_single (congrArg Except.ok hv)).1
  exact fun _ id id' r r' hr hr' _ _ => (hid id r hr).trans (hid id' r' hr').symm

/-- An update of somebody who is found fails with an error of the store. -/
theorem fails_updateUser_of_found (hf : s.findById id = .ok (some u)) (c : UserChanges) :
    Answer.Fails (·.isStore = true) (s.updateUser id c).1 := by
  cases s with
  | memory m =>
    have hu : m.users.get? id = some u := Except.ok.inj hf
    simp only [updateUser, ofMemory, MemoryStore.updateUser, hu]
    exact Answer.fails_ok _
  | database db =>
    obtain ⟨t, r, ht, hr, hholds⟩ := Database.findUser_eq_ok_some.1 hf
    simp only [updateUser, ofDatabase, Database.updateUser, ht, hr, hholds.times_eq]
    split
    · exact Answer.fails_error rfl
    · exact UserRow.fails_toUser _ _

end Store

namespace Accounts

variable {a : Accounts} {m m' : Moment} {w w' : World} {name : Username}
  {roles : Option (List Role)} {password : String} {u : User}

/-! ### One attempt -/

/-- Whoever is not found, or comes with a wrong password, is told that there is no such user, and
nothing happens. -/
theorem signInWithPassword_of_unfit (a : Accounts) {o : Option User}
    (ho : w.store.findByUsername name roles = .ok o)
    (hunfit : ∀ u, o = some u → passwordFits password u.hashedPassword = false) :
    ∃ log, (a.signInWithPassword name password roles).perform m w =
      (.error (.auth .userNotFound), { w with log := log }) := by
  have hquery : (Action.query (·.findByUsername name roles)).perform m w = (.ok o, w) :=
    Action.query_eq_ok.2 ⟨ho, rfl⟩
  rw [signInWithPassword, Action.perform_bind_ok hquery]
  cases o with
  | none => exact ⟨w.log, rfl⟩
  | some u =>
    refine ⟨w.log ++ [.passwordMismatch name.value], ?_⟩
    rw [Action.perform_bind_ok (Action.orReject_eq_ok.2 ⟨rfl, rfl⟩), hunfit u rfl]
    rfl

/-- The full sign-in of somebody who is found fails in its end because of the store or the cache. -/
theorem fails_complete (hf : w.store.findById u.id = .ok (some u)) (extra : UserChanges) :
    Answer.Fails (· ≠ .auth .userNotFound) ((a.complete u extra).perform m w).1 := by
  rcases hx : w.store.updateUser u.id (signInChanges u extra m) with ⟨e | v, s⟩
  · rw [perform_complete_of_error hx]
    refine Answer.fails_error fun he => ?_
    have hstore := Store.fails_updateUser_of_found hf (signInChanges u extra m) e (by rw [hx])
    cases (Error.auth?_of_isStore hstore).symm.trans (congrArg Error.auth? he)
  · rw [perform_complete_of_ok hx]
    refine (fails_welcome v m _).mono ?_
    rintro _ ⟨f, rfl⟩
    exact nofun

theorem unverified?_ne_userNotFound (name : Username) (u : User) :
    unverified? name u ≠ some .userNotFound := by
  cases name with
  | email e => simp [unverified?]
  | phone p => simp [unverified?]

/-- Whoever comes with the right password is not told that there is no such user. -/
theorem signInWithPassword_of_fit (a : Accounts) (hs : w.store.Sound)
    (hu : w.store.findByUsername name roles = .ok (some u))
    (hfit : passwordFits password u.hashedPassword = true) :
    Answer.Fails (· ≠ .auth .userNotFound)
      ((a.signInWithPassword name password roles).perform m w).1 := by
  have hquery : (Action.query (·.findByUsername name roles)).perform m w = (.ok (some u), w) :=
    Action.query_eq_ok.2 ⟨hu, rfl⟩
  rw [signInWithPassword, Action.perform_bind_ok hquery,
    Action.perform_bind_ok (Action.orReject_eq_ok.2 ⟨rfl, rfl⟩), hfit]
  refine Action.fails_perform_bind ?_ fun _ v hv => ?_
  · rw [requireEnabled, Action.perform_require]
    cases u.isEnable with
    | true => exact Answer.fails_ok ()
    | false => exact Answer.fails_error nofun
  · obtain ⟨-, rfl⟩ := Action.require_eq_ok.1 hv
    cases hverified : unverified? name u with
    | some e =>
      refine Answer.fails_error fun he => ?_
      rw [Error.auth.inj he] at hverified
      exact unverified?_ne_userNotFound name u hverified
    | none => exact fails_complete (hs.findById_of_findByUsername hu) {}

/-- A store that turns a password away answers that there is no such user, and nothing happens. -/
theorem signInWithPassword_of_turnsAway (a : Accounts) (h : w.store.Resolves name)
    (haway : w.store.TurnsAway name roles password) (m : Moment) :
    ∃ log, (a.signInWithPassword name password roles).perform m w =
      (.error (.auth .userNotFound), { w with log := log }) := by
  obtain ⟨o, ho⟩ := h.reads.exists_findByUsername roles
  exact a.signInWithPassword_of_unfit ho ((Store.turnsAway_iff h.sound h.unique ho).1 haway)

/-- Only who is turned away is told that there is no such user. -/
theorem turnsAway_of_userNotFound (h : w.store.Resolves name)
    (hx : ((a.signInWithPassword name password roles).perform m w).1 =
      .error (.auth .userNotFound)) : w.store.TurnsAway name roles password := by
  obtain ⟨o, ho⟩ := h.reads.exists_findByUsername roles
  refine (Store.turnsAway_iff h.sound h.unique ho).2 ?_
  rintro u rfl
  by_contra hfit
  exact a.signInWithPassword_of_fit h.sound ho (Bool.eq_true_of_not_eq_false hfit) _ hx rfl

/-! ### Two attempts -/

/-- Who comes without the password of an account is told that there is no such user, and only
they are. So two attempts, each in a world of its own and with a store that turns the password
away, end in the same answer, and neither leaves anything behind but what is logged: whether there
is an account, with which role, and in which state, cannot be told from it. -/
theorem silent_without_password (a : Accounts) (m m' : Moment) {w w' : World} {name : Username}
    (roles : Option (List Role)) (password : String) (h : w.store.Resolves name)
    (h' : w'.store.Resolves name) :
    (((a.signInWithPassword name password roles).perform m w).1 = .error (.auth .userNotFound) ↔
      w.store.TurnsAway name roles password) ∧
    (w.store.TurnsAway name roles password → w'.store.TurnsAway name roles password →
      ((a.signInWithPassword name password roles).perform m w).1 =
        ((a.signInWithPassword name password roles).perform m' w').1 ∧
      ∃ log log',
        (a.signInWithPassword name password roles).perform m w =
          (.error (.auth .userNotFound), { w with log := log }) ∧
        (a.signInWithPassword name password roles).perform m' w' =
          (.error (.auth .userNotFound), { w' with log := log' })) := by
  refine ⟨⟨turnsAway_of_userNotFound h, fun haway => ?_⟩, fun haway haway' => ?_⟩
  · obtain ⟨log, hx⟩ := a.signInWithPassword_of_turnsAway h haway m
    rw [hx]
  · obtain ⟨log, hx⟩ := a.signInWithPassword_of_turnsAway h haway m
    obtain ⟨log', hx'⟩ := a.signInWithPassword_of_turnsAway h' haway' m'
    exact ⟨by rw [hx, hx'], log, log', hx, hx'⟩

/-- Nobody has the address in one store; in the other it is that of a user who is blocked and whose
hash no password fits. -/
theorem silent_without_password_blocked :
    let a : Accounts := ⟨⟨⟨"secret", .hs256⟩, 60, 120⟩, {}, 4, 16⟩
    let u : User := { (NewUser.customer (.email "a@b")).toUser 1 with
      isBlocked := true, hashedPassword := some "no hash" }
    let w := Action.worldOf (.memory (.new 1)) (.memory .empty) .log
    let w' := Action.worldOf (.memory (.new 1)) (.memory (MemoryStore.empty.insertUser u)) .log
    ∀ m m' : Moment, ((a.signInWithPassword (.email "a@b") "guess" none).perform m w).1 =
      ((a.signInWithPassword (.email "a@b") "guess" none).perform m' w').1 := by
  intro a u w w' m m'
  have hunique : w.store.Unique := fun _ _ _ _ _ hr => nomatch hr
  have hempty : w.store.Resolves (.email "a@b") := ⟨.empty, hunique, trivial⟩
  have hblocked : w'.store.Resolves (.email "a@b") :=
    ⟨Store.Sound.empty.insertUser u, Store.unique_single u, trivial⟩
  refine ((a.silent_without_password m m' none "guess" hempty hblocked).2 ?_ ?_).1
  · exact fun _ _ hv => nomatch Except.ok.inj hv
  · intro id v hv _ _
    rw [(Store.eq_of_single hv).2]
    decide

end Accounts

end AuthCore
