import AuthCore.Proofs.Account.Standing

/-!
# One account for each identity

Whoever signs in with a one-time code is looked for by the username, whoever comes with a profile by
its e-mail address in the one form that addresses have; who is not found is registered under just
this username (`Operation.seeks?`). In a store where no two users have a username in common this
never makes a second account: the users go on to have usernames of their own
(`Accounts.step_unique`), and whatever a username has led to once it leads to for the rest of the
run (`Accounts.led_to`).

Only e-mail addresses are looked for with a profile. A profile may name a phone number as its
address; this is then no username of its account, and another spelling of the number makes another
account.

The numbers of users have 32 bits. A run can give all of them (`Store.NumbersFit`) as long as none
that was chosen from outside is too near to the greatest one.
-/

namespace AuthCore

/-- No two users have a username in common. -/
def Store.Unique (s : Store) : Prop :=
  ∀ name id id' r r', s.row? id = some r → s.row? id' = some r' →
    r.hasUsername name = true → r'.hasUsername name = true → id = id'

/-- The numbers that were given can be written with 32 bits. Behind the greatest of these there is
none that could be given. -/
def Store.NumbersFit (s : Store) : Prop := s.lastNumber < 2 ^ 31

/-- Whoever has a username, if anybody, is the only one. -/
theorem Store.Unique.owner {s : Store} (h : s.Unique) (name : Username) :
    ∃ id, ∀ k r, s.row? k = some r → r.hasUsername name = true → k = id := by
  by_cases howner : ∃ id r, s.row? id = some r ∧ r.hasUsername name = true
  · obtain ⟨id, r, hr, hname⟩ := howner
    exact ⟨id, fun k r' hr' hname' => h name k id r' r hr' hr hname' hname⟩
  · exact ⟨0, fun k r hr hname => absurd ⟨k, r, hr, hname⟩ howner⟩

/-- The username that an operation finds or creates a user by. -/
def Operation.seeks? (m : Moment) (w : World) : Operation → Option Username
  | signInWithCode name _ => some name
  | op => ((op.profile? m w).bind fun p => SocialProfile.normalEmail p.email).map .email

namespace Record

/-- A step finds or creates a user by a username. -/
def Seeks (name : Username) (r : Record) : Prop :=
  r.step.operation.seeks? r.step.moment r.before = some name

/-- A step creates the user with a number. -/
def Creates (a : Accounts) (id : Int) (r : Record) : Prop :=
  r.before.store.row? id = none ∧ (a.step r.step r.before).2.store.row? id ≠ none

end Record

/-- An e-mail address that is a username is the one form of itself. -/
theorem SocialProfile.normalEmail_of_parse? {raw email : String}
    (h : Username.parse? raw = some (.email email)) : normalEmail (some raw) = some email := by
  simp only [Username.parse?] at h
  split at h
  next =>
    split at h
    next haddress =>
      obtain rfl : Text.lower (Text.trim raw) = email := Username.email.inj (Option.some.inj h)
      have hne : Text.lower (Text.trim raw) ≠ "" := by
        intro he
        rw [he] at haddress
        cases haddress
      rw [normalEmail, Option.map_some, Option.filter_some, if_pos (bne_iff_ne.2 hne)]
    next => cases h
  next =>
    split at h
    next => cases h
    next => cases h

namespace Operation

variable {a : Accounts} {m : Moment} {w : World} {op : Operation} {id : Int} {u : User}
  {n : NewUser} {extra : UserChanges} {s : Store} {r r' : UserRow} {name : Username}

theorem seeks?_of_profile? {p : SocialProfile} {email : String} (h : op.profile? m w = some p)
    (he : SocialProfile.normalEmail p.email = some email) :
    op.seeks? m w = some (.email email) := by
  cases op
  case signInWithProfile =>
    simp only [seeks?, h, Option.bind_some, he, Option.map_some]
  case signInWithProvider =>
    simp only [seeks?, h, Option.bind_some, he, Option.map_some]
  all_goals cases h

/-- Whoever is found by the username that was looked for has it. -/
theorem Finds.hasUsername (h : op.Finds a m w u extra) (hs : w.store.Sound)
    (hseeks : op.seeks? m w = some name) :
    ∃ r, w.store.row? u.id = some r ∧ r.hasUsername name = true := by
  have hrow {name' : Username} (hfound : w.store.findByUsername name' none = .ok (some u))
      (hname : name' = name) : ∃ r, w.store.row? u.id = some r ∧ r.hasUsername name = true := by
    obtain ⟨r, hr, -, hr'⟩ := hs.row?_of_findByUsername hfound
    exact ⟨r, hr, hname ▸ hr'⟩
  cases h with
  | password => cases hseeks
  | code hpasses hfound => exact hrow hfound (Option.some.inj hseeks)
  | known => cases hseeks
  | profile hbrings haddress hfound =>
    exact hrow hfound (Option.some.inj ((seeks?_of_profile? hbrings haddress).symm.trans hseeks))
  | reset => cases hseeks

/-- Whoever is registered has the username that was looked for. -/
theorem Registers.hasUsername (h : op.Registers a m w n extra) (hseeks : op.seeks? m w = some name)
    (id : Int) : (UserRow.ofNew n id).hasUsername name = true := by
  cases h with
  | @code name' =>
    obtain rfl := Option.some.inj hseeks
    cases name' <;> exact beq_self_eq_true _
  | profile hbrings haddress =>
    obtain rfl := Option.some.inj ((seeks?_of_profile? hbrings haddress).symm.trans hseeks)
    exact beq_self_eq_true _

/-- A username in a row was there before, or it is that of a new user and nobody had it. -/
theorem hasUsername_cases (a : Accounts) (op : Operation) (m : Moment) (hs : w.store.Sound)
    (hr : ((op.perform a).perform m w).2.store.row? id = some r)
    (hname : r.hasUsername name = true) :
    (∃ r₀, w.store.row? id = some r₀ ∧ r₀.hasUsername name = true) ∨
      id = w.store.lastNumber + 1 ∧
        ∀ k r₀, w.store.row? k = some r₀ → r₀.hasUsername name = false := by
  rcases op.row_cases a m hs hr with ⟨r₀, hr₀, hstanding⟩ | ⟨hid, n, extra, s, -, hadds, hstanding⟩
  · rw [hstanding.hasUsername_eq] at hname
    exact .inl ⟨r₀, hr₀, hname⟩
  · rw [hstanding.hasUsername_eq] at hname
    refine .inr ⟨hid, fun k r₀ hr₀ => ?_⟩
    by_contra hother
    have hfree := hadds.free k r₀ name hr₀ (Bool.not_eq_false _ ▸ hother)
    rw [← hid, hname] at hfree
    cases hfree

/-- Whoever is created gets the number behind the last one. -/
theorem creates_lastNumber (a : Accounts) (op : Operation) (m : Moment) (hs : w.store.Sound)
    (hnone : w.store.row? id = none)
    (hsome : ((op.perform a).perform m w).2.store.row? id ≠ none) :
    id = w.store.lastNumber + 1 := by
  obtain ⟨r, hr⟩ := Option.ne_none_iff_exists'.1 hsome
  rcases op.row_cases a m hs hr with ⟨r₀, hr₀, -⟩ | ⟨hid, -⟩
  · cases hnone.symm.trans hr₀
  · exact hid

/-- Whoever is created has the username that was looked for. -/
theorem creates_hasUsername (a : Accounts) (op : Operation) (m : Moment) (hs : w.store.Sound)
    (hseeks : op.seeks? m w = some name) (hnone : w.store.row? id = none)
    (hr : ((op.perform a).perform m w).2.store.row? id = some r) : r.hasUsername name = true := by
  rcases op.row_cases a m hs hr with ⟨r₀, hr₀, -⟩ | ⟨-, n, extra, s, hregisters, -, hstanding⟩
  · cases hnone.symm.trans hr₀
  · rw [hstanding.hasUsername_eq]
    exact hregisters.hasUsername hseeks id

theorem entrant_of_seeks (a : Accounts) (hseeks : op.seeks? m w = some name) :
    ∃ x, op.entrant? a = some x := by
  cases op
  case signInWithCode => exact ⟨_, rfl⟩
  case signInWithProfile => exact ⟨_, rfl⟩
  case signInWithProvider => exact ⟨_, rfl⟩
  all_goals cases hseeks

end Operation

namespace Accounts

variable {a : Accounts} {w : World} {id : Int} {r : UserRow} {name : Username}

/-! ### Steps -/

/-- The users go on to have usernames of their own. -/
theorem step_unique (a : Accounts) (s : Step) (hs : w.store.Sound) (hu : w.store.Unique) :
    (a.step s w).2.store.Unique := by
  intro name id id' r r' hr hr' hname hname'
  have hcases := s.operation.hasUsername_cases a s.moment hs hr hname
  have hcases' := s.operation.hasUsername_cases a s.moment hs hr' hname'
  rcases hcases with ⟨r₀, hr₀, hname₀⟩ | ⟨hid, hfree⟩ <;>
    rcases hcases' with ⟨r₀', hr₀', hname₀'⟩ | ⟨hid', hfree'⟩
  · exact hu name id id' r₀ r₀' hr₀ hr₀' hname₀ hname₀'
  · cases hname₀.symm.trans (hfree' id r₀ hr₀)
  · cases hname₀'.symm.trans (hfree id' r₀' hr₀')
  · exact hid.trans hid'.symm

/-- Whoever is signed in by a username has it, and gets a pair of tokens. -/
theorem step_signs_in (a : Accounts) (s : Step) (hs : w.store.Sound)
    (hseeks : s.operation.seeks? s.moment w = some name) {p : TokenPair}
    (hp : (a.step s w).1 = .ok (.pair p)) :
    ∃ u r, (a.step s w).2.store.findById u.id = .ok (some u) ∧
      (a.step s w).2.store.row? u.id = some r ∧ r.hasUsername name = true ∧
      p = a.tokens.pair u.id u.role false s.moment := by
  obtain ⟨x, hx⟩ := s.operation.entrant_of_seeks a hseeks
  obtain ⟨u, extra, r₀, u', hwho, hfound, -, hid, hpair⟩ := Operation.signed_in hx hs hp
  obtain ⟨r, hr, -⟩ := Store.row?_of_findById hfound
  refine ⟨u', r, hid ▸ hfound, hid ▸ hr, ?_, hid ▸ hpair⟩
  rcases hwho with ⟨hfinds, -⟩ | ⟨n, hregisters, rfl, -⟩
  · obtain ⟨r₀, hr₀, hname⟩ := hfinds.hasUsername hs hseeks
    obtain ⟨r', hr', hcontinues⟩ := a.step_continues s hs hr₀
    obtain rfl := Option.some.inj (hr'.symm.trans hr)
    exact (hcontinues.standing.hasUsername_eq name).trans hname
  · exact s.operation.creates_hasUsername a s.moment hs hseeks hs.row?_lastNumber hr

/-! ### Runs -/

theorem unique_after (hs : w.store.Sound) (hu : w.store.Unique) (steps : List Step) :
    (a.after w steps).store.Unique := by
  induction steps using List.reverseRecOn with
  | nil => exact hu
  | append_singleton steps s ih =>
    rw [after_concat]
    exact a.step_unique s (sound_after hs steps) ih

/-- The last number only grows. -/
theorem lastNumber_le_after (hs : w.store.Sound) (steps : List Step) :
    w.store.lastNumber ≤ (a.after w steps).store.lastNumber := by
  induction steps using List.reverseRecOn with
  | nil => exact le_rfl
  | append_singleton steps s ih =>
    rw [after_concat]
    exact ih.trans (s.operation.lastNumber_le a s.moment (sound_after hs steps))

/-- A run gives one number a step at most. -/
theorem lastNumber_after_le (hs : w.store.Sound) (steps : List Step) :
    (a.after w steps).store.lastNumber ≤ w.store.lastNumber + steps.length := by
  induction steps using List.reverseRecOn with
  | nil => simp [after]
  | append_singleton steps s ih =>
    have hstep := s.operation.lastNumber_le_add_one a s.moment (sound_after (a := a) hs steps)
    rw [after_concat, List.length_append, List.length_singleton]
    show ((s.operation.perform a).perform s.moment (a.after w steps)).2.store.lastNumber ≤ _
    omega

/-- A username that stands in a row stands in it later on. -/
theorem hasUsername_after (hs : w.store.Sound) (steps : List Step)
    (hr : w.store.row? id = some r) (hname : r.hasUsername name = true) :
    ∃ r', (a.after w steps).store.row? id = some r' ∧ r'.hasUsername name = true := by
  obtain ⟨r', hr', hcontinues⟩ := continues_after (a := a) hs steps hr
  exact ⟨r', hr', (hcontinues.standing.hasUsername_eq name).trans hname⟩

/-- Whoever a username has led to in a run has it at the end. -/
theorem led_to (hs : w.store.Sound) {steps : List Step} {q : Record} (hq : q ∈ a.trace w steps)
    (hseeks : q.Seeks name) :
    (∀ p, q.answer = .ok (.pair p) → ∃ u,
      (a.step q.step q.before).2.store.findById u.id = .ok (some u) ∧
      p = a.tokens.pair u.id u.role false q.step.moment ∧
      ∃ r, (a.after w steps).store.row? u.id = some r ∧ r.hasUsername name = true) ∧
    ∀ id, q.Creates a id →
      ∃ r, (a.after w steps).store.row? id = some r ∧ r.hasUsername name = true := by
  obtain ⟨before, s, since, rfl, rfl⟩ := mem_trace.1 hq
  have hsound := sound_after (a := a) hs before
  have hsound' : (a.step s (a.after w before)).2.store.Sound :=
    s.operation.sound_perform a s.moment hsound
  have hafter : a.after w (before ++ s :: since) =
      a.after (a.step s (a.after w before)).2 since := after_append before (s :: since)
  rw [hafter]
  constructor
  · intro p hp
    obtain ⟨u, r, hfound, hr, hname, hpair⟩ := a.step_signs_in s hsound hseeks hp
    exact ⟨u, hfound, hpair, hasUsername_after hsound' since hr hname⟩
  · rintro id ⟨hnone, hsome⟩
    obtain ⟨r, hr⟩ := Option.ne_none_iff_exists'.1 hsome
    have hname := s.operation.creates_hasUsername a s.moment hsound hseeks hnone hr
    exact hasUsername_after hsound' since hr hname

/-- Over every run that begins with a sound store in which no two users have a username in common
the users go on to have usernames of their own. As long as the numbers of users fit, whoever is
created in a step gets a number beyond all numbers that were given before, and for each username
there is one account that all sign-ins by it are for, whether they find it or create it. The e-mail
address of a profile is the same username as the one that it spells. -/
theorem one_account (a : Accounts) (hs : w.store.Sound) (hu : w.store.Unique)
    (steps : List Step) :
    (a.after w steps).store.Unique ∧
    (∀ s id, (a.record s (a.after w steps)).Creates a id →
      (a.step s (a.after w steps)).2.store.NumbersFit →
      id < 2 ^ 31 ∧ ∀ earlier, earlier <+: steps → (a.after w earlier).store.lastNumber < id ∧
        ∀ k r, (a.after w earlier).store.row? k = some r → k < id) ∧
    ((a.after w steps).store.NumbersFit → ∀ name, ∃ id, ∀ q ∈ a.trace w steps, q.Seeks name →
      (∀ p, q.answer = .ok (.pair p) → ∃ u,
        (a.step q.step q.before).2.store.findById id = .ok (some u) ∧
        p = a.tokens.pair id u.role false q.step.moment) ∧
      ∀ k, q.Creates a k → k = id) ∧
    ∀ raw name (p : SocialProfile) m v, Username.parse? raw = some name → name.isEmail = true →
      p.email = some raw → (Operation.signInWithProfile p).seeks? m v = some name := by
  have hunique := unique_after (a := a) hs hu steps
  refine ⟨hunique, ?_, fun _ name => ?_, ?_⟩
  · rintro s id ⟨hnone, hsome⟩ hfit
    have hafter := sound_after (a := a) hs steps
    have hid := s.operation.creates_lastNumber a s.moment hafter hnone hsome
    obtain ⟨r, hr⟩ := Option.ne_none_iff_exists'.1 hsome
    have hlast := ((s.operation.sound_perform a s.moment hafter).of_row? hr).2
    refine ⟨hlast.trans_lt hfit, ?_⟩
    rintro earlier ⟨later, rfl⟩
    have hsound := sound_after (a := a) hs earlier
    have hgrows := lastNumber_le_after (a := a) hsound later
    rw [← after_append] at hgrows
    refine ⟨by omega, fun k r hr => ?_⟩
    have hk := (hsound.of_row? hr).2
    omega
  · obtain ⟨id, hid⟩ := hunique.owner name
    refine ⟨id, fun q hq hseeks => ?_⟩
    obtain ⟨hanswers, hcreates⟩ := led_to hs hq hseeks
    refine ⟨fun p hp => ?_, fun k hk => ?_⟩
    · obtain ⟨u, hfound, hpair, r, hr, hname⟩ := hanswers p hp
      obtain rfl := hid u.id r hr hname
      exact ⟨u, hfound, hpair⟩
    · obtain ⟨r, hr, hname⟩ := hcreates k hk
      exact hid k r hr hname
  · rintro raw (email | number) p m v hraw hemail hp
    · exact Operation.seeks?_of_profile? rfl (hp ▸ SocialProfile.normalEmail_of_parse? hraw)
    · cases hemail

/-! ### Newcomers with a profile -/

/-- A profile with an address that nobody has clashes with nobody. -/
theorem createUser_of_absent {s : MemoryStore} {email : String}
    (habsent : s.findByEmail email = none) (p : SocialProfile) (hash : String) :
    s.createUser (socialCustomer p email hash) =
      (.ok ((socialCustomer p email hash).toUser (s.lastUser + 1)),
        (s.createUser (socialCustomer p email hash)).2) := by
  have hfree : s.users.values.any (MemoryStore.clashes (socialCustomer p email hash)) = false := by
    refine List.any_eq_false.2 fun u hu hclash => ?_
    have hother := List.find?_eq_none.1 habsent u hu
    simp_all [MemoryStore.clashes, socialCustomer]
  simp only [MemoryStore.createUser, hfree, Bool.false_eq_true, if_false]

/-- Where nobody has the address of a profile, a user is created for it. -/
theorem profileEntrant_of_absent {m : Moment} {s : MemoryStore} {p : SocialProfile} {email : String}
    (hw : w.store = .memory s) (haddress : SocialProfile.normalEmail p.email = some email)
    (habsent : s.findByEmail email = none) (hcost : Password.costAllowed a.hashCost = true) :
    ∃ hash, (a.profileEntrant p).perform m w =
      (.ok ((socialCustomer p email hash).toUser (s.lastUser + 1), p.changes),
        { w with store := .memory (s.createUser (socialCustomer p email hash)).2 }) := by
  obtain ⟨hash, hhash⟩ : ∃ hash,
      Password.hash a.hashCost m.salt (m.password a.passwordLength) = .ok hash := by
    simp only [Password.hash, hcost, if_true]
    exact ⟨_, rfl⟩
  have hfind : (a.findOrCreate p email).perform m w =
      (.ok ((socialCustomer p email hash).toUser (s.lastUser + 1)),
        { w with store := .memory (s.createUser (socialCustomer p email hash)).2 }) := by
    rw [findOrCreate, Action.perform_bind, Action.perform_query, hw]
    simp only [Store.findByEmail, habsent, Action.perform_bind, Action.perform_read, hashPassword,
      Action.perform_ofAnswer, hhash, Except.mapError, Action.perform_change, hw,
      Store.createUser, Store.ofMemory]
    rw [createUser_of_absent habsent]
  refine ⟨hash, ?_⟩
  rw [profileEntrant, haddress, Action.perform_bind_ok (Action.orReject_eq_ok.2 ⟨rfl, rfl⟩),
    Action.perform_bind_ok hfind]
  rfl

/-- What a store is after somebody has come with a profile whose address nobody had. -/
theorem store_of_newcomer {m : Moment} {s : MemoryStore} {p : SocialProfile} {email : String}
    (hw : w.store = .memory s) (haddress : SocialProfile.normalEmail p.email = some email)
    (habsent : s.findByEmail email = none) (hcost : Password.costAllowed a.hashCost = true) :
    ∃ hash, (((Operation.signInWithProfile p).perform a).perform m w).2.store =
      ((Store.memory (s.createUser (socialCustomer p email hash)).2).updateUser (s.lastUser + 1)
        (signInChanges ((socialCustomer p email hash).toUser (s.lastUser + 1)) p.changes m)).2 := by
  obtain ⟨hash, hx⟩ := profileEntrant_of_absent (a := a) (m := m) hw haddress habsent hcost
  exact ⟨hash, Operation.store_of_coming rfl hx⟩

/-- Two spellings of an address come one after the other: the first one gets a number beyond that of
the empty store, the second one leads to the same account. -/
theorem one_account_spellings :
    let a : Accounts := ⟨⟨⟨"secret", .hs256⟩, 60, 120⟩, {}, 4, 16⟩
    let w := Action.worldOf (.memory (.new 2)) (.memory .empty) .log
    let brings (raw : String) : Step :=
      ⟨0, .ofSeed 0, .signInWithProfile ⟨some raw, none, none, none, true⟩⟩
    let s := brings "a@b.c"
    let t := brings " A@b.C"
    (a.after w [s, t]).store.NumbersFit ∧
      ((a.record s w).Creates a 1 ∧ w.store.lastNumber < 1) ∧
      ∀ k, (a.record t (a.after w [s])).Creates a k → k = 1 := by
  intro a w brings s t
  have hunique : w.store.Unique := fun _ _ _ _ _ hr => nomatch hr
  have hfirst : (a.record s w).Creates a 1 := by
    obtain ⟨hash, hstore⟩ := store_of_newcomer (a := a) (m := s.moment) (w := w)
      (p := ⟨some "a@b.c", none, none, none, true⟩) rfl rfl rfl rfl
    refine ⟨rfl, ?_⟩
    show Store.row? ((s.operation.perform a).perform s.moment w).2.store 1 ≠ none
    rw [hstore]
    exact Option.some_ne_none _
  have hfits (steps : List Step) (hfew : (steps.length : Int) < 2 ^ 31) :
      (a.after w steps).store.NumbersFit := by
    have hlast := lastNumber_after_le (a := a) (w := w) .empty steps
    have hnone : w.store.lastNumber = 0 := rfl
    rw [Store.NumbersFit]
    omega
  obtain ⟨-, hnumbers, -⟩ := a.one_account Store.Sound.empty hunique []
  obtain ⟨-, hbeyond⟩ := hnumbers s 1 hfirst (hfits [s] (by decide))
  obtain ⟨-, -, haccount, -⟩ := a.one_account Store.Sound.empty hunique [s, t]
  obtain ⟨id, hid⟩ := haccount (hfits [s, t] (by decide)) (.email "a@b.c")
  have hone : 1 = id := (hid (a.record s w) List.mem_cons_self rfl).2 1 hfirst
  have hsecond := (hid _ (List.mem_cons_of_mem _ List.mem_cons_self) rfl).2
  exact ⟨hfits [s, t] (by decide), ⟨hfirst, (hbeyond [] List.nil_prefix).1⟩,
    fun k hk => hone ▸ hsecond k hk⟩

/-- Two spellings of a phone number that come as addresses make two accounts. And where a user has
the greatest number of 32 bits, the next one would need a number that has more. -/
theorem two_accounts_of_number :
    let a : Accounts := ⟨⟨⟨"secret", .hs256⟩, 60, 120⟩, {}, 4, 16⟩
    let w := Action.worldOf (.memory (.new 2)) (.memory .empty) .log
    let brings (raw : String) : Step :=
      ⟨0, .ofSeed 0, .signInWithProfile ⟨some raw, none, none, none, true⟩⟩
    let s := brings "+491234567"
    let t := brings "+49 1234567"
    Username.parse? "+491234567" = some (.phone "+491234567") ∧
      Username.parse? "+49 1234567" = some (.phone "+491234567") ∧
      w.store.Sound ∧ w.store.Unique ∧
      ((a.record s w).Creates a 1 ∧ (a.record t (a.after w [s])).Creates a 2) ∧
      let u := (NewUser.customer (.email "a@b.c")).toUser 2147483647
      let full := Action.worldOf (.memory (.new 2)) (.memory (MemoryStore.empty.insertUser u)) .log
      full.store.NumbersFit ∧ ¬ (a.after full [s]).store.NumbersFit := by
  intro a w brings s t
  have hunique : w.store.Unique := fun _ _ _ _ _ hr => nomatch hr
  obtain ⟨hash, hfirst⟩ := store_of_newcomer (a := a) (m := s.moment) (w := w)
    (p := ⟨some "+491234567", none, none, none, true⟩) rfl rfl rfl rfl
  obtain ⟨hash', hsecond⟩ := store_of_newcomer (a := a) (m := t.moment) (w := a.after w [s])
    (p := ⟨some "+49 1234567", none, none, none, true⟩) hfirst rfl rfl rfl
  have hfirst' : (a.after w [s]).store = _ := hfirst
  have hsecond' : (a.step t (a.after w [s])).2.store = _ := hsecond
  refine ⟨rfl, rfl, .empty, hunique, ⟨⟨rfl, ?_⟩, ?_, ?_⟩, ?_⟩
  · show (a.after w [s]).store.row? 1 ≠ none
    rw [hfirst']
    exact Option.some_ne_none _
  · show (a.after w [s]).store.row? 2 = none
    rw [hfirst']
    rfl
  · show (a.step t (a.after w [s])).2.store.row? 2 ≠ none
    rw [hsecond']
    exact Option.some_ne_none _
  · intro u full
    obtain ⟨hash'', hlast⟩ := store_of_newcomer (a := a) (m := s.moment) (w := full)
      (p := ⟨some "+491234567", none, none, none, true⟩) rfl rfl rfl rfl
    have hafter : (a.after full [s]).store = _ := hlast
    have hgreatest : full.store.lastNumber = 2147483647 := rfl
    have hnext : (a.after full [s]).store.lastNumber = 2147483648 := by
      rw [hafter, Store.lastNumber_updateUser]
      rfl
    rw [Store.NumbersFit, Store.NumbersFit, hgreatest, hnext]
    decide

end Accounts

end AuthCore
