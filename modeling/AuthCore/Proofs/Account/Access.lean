import AuthCore.Proofs.Account.Failure
import AuthCore.Proofs.Account.Identity
import AuthCore.Proofs.Account.SignedOut
import AuthCore.Proofs.Token.Access

/-!
# Signing in and being let in

A full sign-in answers an access token, and whoever presents it is looked at again. The sign-ins do
not all look at the same things, and none of them looks at everything that counts then: that the
user is enabled and not blocked, and that each channel the user has is proved (`User.IsActive`). So
the token lets in exactly those whom the sign-in has left active, and the others learn what is
missing.
-/

namespace AuthCore

/-- A user who may use an access token. -/
structure User.IsActive (u : User) : Prop where
  isEnable : u.isEnable = true
  unblocked : u.isBlocked = false
  email : ∀ e, u.email = some e → u.emailVerified = true
  phone : ∀ p, u.mobileNumber = some p → u.phoneVerified = true

/-- A user has a username, and has proved to own it. -/
def User.HasProved (u : User) : Username → Prop
  | .email e => u.email = some e ∧ u.emailVerified = true
  | .phone p => u.mobileNumber = some p ∧ u.phoneVerified = true

/-- What a full sign-in makes sure of about the user. -/
def Operation.MakesSure (m : Moment) (w : World) (op : Operation) (u : User) : Prop :=
  match op with
  | signInWithPassword name _ _ => u.isEnable = true ∧ u.HasProved name
  | signInWithCode name _ => u.isEnable = true ∧ u.isBlocked = false ∧ u.HasProved name
  | signInWithProfile _ | signInWithProvider _ _ => u.isEnable = true ∧ u.isBlocked = false ∧
    ∃ p email, op.profile? m w = some p ∧ SocialProfile.normalEmail p.email = some email ∧
      u.email = some email
  | verifyCode name _ => u.HasProved name
  | changePassword v _ _ _ => u.id = v.id
  | _ => True

/-! ### What a sign-in makes sure of -/

namespace Operation

variable {a : Accounts} {m : Moment} {w : World} {op : Operation} {u u' : User} {n : NewUser}
  {extra : UserChanges} {r : UserRow} {name : Username}

/-- A user has proved a username as soon as the row says so. -/
theorem hasProved_of_row (hd : r.Describes u) (hname : r.hasUsername name = true)
    (hv : match name with
      | .email _ => r.emailVerified = true
      | .phone _ => r.phoneVerified = true) : u.HasProved name := by
  cases name with
  | email e => exact ⟨hd.email_eq.trans (beq_iff_eq.1 hname), hd.emailVerified_eq.trans hv⟩
  | phone p => exact ⟨hd.mobileNumber_eq.trans (beq_iff_eq.1 hname), hd.phoneVerified_eq.trans hv⟩

theorem makesSure_of_profile {p : SocialProfile} {email : String} (h : op.profile? m w = some p)
    (haddress : SocialProfile.normalEmail p.email = some email) (he : u.isEnable = true)
    (hb : u.isBlocked = false) (hemail : u.email = some email) : op.MakesSure m w u := by
  cases op
  case signInWithProfile => exact ⟨he, hb, p, email, h, haddress, hemail⟩
  case signInWithProvider => exact ⟨he, hb, p, email, h, haddress, hemail⟩
  all_goals cases h

/-- A sign-in that has found the user has made sure of what belongs to its way. -/
theorem Finds.makesSure (h : op.Finds a m w u extra) (hs : w.store.Sound)
    (hr : w.store.row? u.id = some r)
    (hd : (r.update (Accounts.signInChanges u extra m)).Describes u') : op.MakesSure m w u' := by
  have hrow {name : Username} {roles : Option (List Role)}
      (hfound : w.store.findByUsername name roles = .ok (some u)) :
      r.Describes u ∧ r.hasUsername name = true ∧ u'.isEnable = u.isEnable ∧
        u'.isBlocked = u.isBlocked := by
    obtain ⟨hold, hname⟩ := hs.of_findByUsername hfound hr
    exact ⟨hold, hname, hd.isEnable_eq.trans hold.isEnable_eq.symm,
      hd.isBlocked_eq.trans hold.isBlocked_eq.symm⟩
  cases h with
  | @password name _ _ _ hfound _ henabled hverified =>
    obtain ⟨hold, hname, henable, -⟩ := hrow hfound
    refine ⟨henable.trans henabled, ?_⟩
    cases name with
    | email e =>
      refine hasProved_of_row hd hname (hold.emailVerified_eq.symm.trans ?_)
      by_contra hn
      simp [Accounts.unverified?, hn] at hverified
    | phone p =>
      refine hasProved_of_row hd hname (hold.phoneVerified_eq.symm.trans ?_)
      by_contra hn
      simp [Accounts.unverified?, hn] at hverified
  | @code name _ _ _ hfound henabled hunblocked =>
    obtain ⟨-, hname, henable, hblocked⟩ := hrow hfound
    refine ⟨henable.trans henabled, hblocked.trans hunblocked, ?_⟩
    cases name <;> exact hasProved_of_row hd hname rfl
  | @known name _ _ _ hfound =>
    obtain ⟨-, hname, -, -⟩ := hrow hfound
    show u'.HasProved name
    cases name <;> exact hasProved_of_row hd hname rfl
  | profile hbrings haddress hfound henabled hunblocked =>
    obtain ⟨-, hname, henable, hblocked⟩ := hrow hfound
    exact makesSure_of_profile hbrings haddress (henable.trans henabled)
      (hblocked.trans hunblocked) (hd.email_eq.trans (beq_iff_eq.1 hname))
  | reset => exact (congrArg User.id hd.eq).trans (hs.of_row? hr).1

/-- So has a sign-in that has registered the user. -/
theorem Registers.makesSure (h : op.Registers a m w n extra) {id : Int}
    (hd : ((UserRow.ofNew n id).update (Accounts.signInChanges u extra m)).Describes u') :
    op.MakesSure m w u' := by
  cases h with
  | @code name =>
    refine ⟨hd.isEnable_eq, hd.isBlocked_eq, ?_⟩
    cases name <;> exact hasProved_of_row hd (beq_self_eq_true _) rfl
  | profile hbrings haddress =>
    exact makesSure_of_profile hbrings haddress hd.isEnable_eq hd.isBlocked_eq hd.email_eq

end Operation

/-! ### Being let in -/

namespace Accounts

variable {a : Accounts} {m : Moment} {w : World} {u : User} {id : Int}

/-- Nothing keeps an active user from using an access token, apart from a forced sign-out. -/
theorem inactive?_eq_none_iff (hf : u.isForceLogin = false) : inactive? u = none ↔ u.IsActive := by
  constructor
  · intro h
    simp only [inactive?, hf, Bool.false_eq_true, if_false] at h
    split at h
    next => cases h
    next henabled =>
      split at h
      next => cases h
      next hunblocked =>
        split at h
        next => cases h
        next hemail =>
          constructor
          case isEnable => simpa using henabled
          case unblocked => simpa using hunblocked
          case email => exact fun e he => by simpa [he] using hemail
          case phone => exact fun p hp => by simpa [hp] using h
  · rintro ⟨henabled, hunblocked, hemail, hphone⟩
    have hemail' : (u.email.filter fun _ => !u.emailVerified) = none := by
      refine Option.filter_eq_none_iff.2 fun e he => ?_
      simp [hemail e he]
    have hphone' : (u.mobileNumber.filter fun _ => !u.phoneVerified) = none := by
      refine Option.filter_eq_none_iff.2 fun p hp => ?_
      simp [hphone p hp]
    simp [inactive?, hf, henabled, hunblocked, hemail', hphone']

/-- The access token of a pair verifies until it expires. -/
theorem verify_of_pair (t : Tokens) (hid : RefreshToken.Fits id) (role : Role) {m m' : Moment}
    (hnow : m.now ≤ m'.now)
    (hlive : m'.second ≤ (AccessClaims.issue id role false m.second t.accessLifetime).expiresAt) :
    AccessToken.verify t.signer m'.second (t.pair id role false m).accessToken =
      .ok (.issue id role false m.second t.accessLifetime) := by
  have hle : m.second ≤ m'.second := Int.ofNat_le.2 (Nat.div_le_div_right hnow)
  have hlast : (AccessClaims.issue id role false m.second t.accessLifetime).expiresAt ≤
      AccessClaims.lastSecond := min_le_right _ _
  have hfit := AccessClaims.fit_issue hid role false
    ⟨Int.natCast_nonneg _, hle.trans (hlive.trans hlast)⟩ t.accessLifetime
  exact AccessToken.verify_encode t.signer hfit hlive

/-- Whoever presents the access token of a pair before it expires is let in if active, and otherwise
learns what is missing. -/
theorem step_authenticate {t : Step} {role : Role} (hid : RefreshToken.Fits id)
    (hop : t.operation = .authenticate (a.tokens.pair id role false m).accessToken)
    (hnow : m.now ≤ t.now) (hlive : t.moment.second ≤
      (AccessClaims.issue id role false m.second a.tokens.accessLifetime).expiresAt)
    (hu : w.store.findById id = .ok (some u)) :
    (a.step t w).1 = match inactive? u with
      | some e => .error (.auth e)
      | none => .ok (.user u false) := by
  have hnow' : m.now ≤ t.moment.now := hnow
  have hverify := verify_of_pair a.tokens hid role hnow' hlive
  rw [step, hop, Operation.perform, Action.perform_map, perform_authenticate hverify rfl hu]
  cases inactive? u <;> rfl

/-- In every run that begins with a sound store, a full sign-in that answers a pair of tokens
answers it for a user who is then in the store and has not to sign in again, and it has made sure of
what belongs to the way of signing in. Until the access token expires, whoever presents it is let in
as this user exactly if the user is active, and otherwise learns what is missing. -/
theorem authenticate_after_signing_in (a : Accounts) (hs : w.store.Sound) (steps : List Step)
    (s : Step) (hfull : (s.operation.entrant? a).isSome = true) {p : TokenPair}
    (hp : (a.step s (a.after w steps)).1 = .ok (.pair p)) :
    ∃ u, (a.step s (a.after w steps)).2.store.findById u.id = .ok (some u) ∧
      u.isForceLogin = false ∧ s.operation.MakesSure s.moment (a.after w steps) u ∧
      p = a.tokens.pair u.id u.role false s.moment ∧
      (RefreshToken.Fits u.id → ∀ t : Step, t.operation = .authenticate p.accessToken →
        s.now ≤ t.now → t.moment.second ≤ (AccessClaims.issue u.id u.role false s.moment.second
          a.tokens.accessLifetime).expiresAt →
        ((a.step t (a.step s (a.after w steps)).2).1 = .ok (.user u false) ↔ u.IsActive) ∧
        ∀ e, inactive? u = some e →
          (a.step t (a.step s (a.after w steps)).2).1 = .error (.auth e)) := by
  obtain ⟨x, hx⟩ := Option.isSome_iff_exists.1 hfull
  have hsound := sound_after (a := a) hs steps
  obtain ⟨u₀, extra, r, u, hwho, hfound₀, hdescribes, hid, hpair⟩ :=
    Operation.signed_in hx hsound hp
  rw [← hid] at hpair
  have hfound : (a.step s (a.after w steps)).2.store.findById u.id = .ok (some u) :=
    hid ▸ hfound₀
  have hforce : u.isForceLogin = false := hdescribes.isForceLogin_eq
  refine ⟨u, hfound, hforce, ?_, hpair, fun hfits t hop hnow hlive => ?_⟩
  · rcases hwho with ⟨hfinds, hr⟩ | ⟨n, hregisters, -, rfl⟩
    · exact hfinds.makesSure hsound hr hdescribes
    · exact hregisters.makesSure hdescribes
  · have hanswer := step_authenticate hfits (hpair ▸ hop) hnow hlive hfound
    rw [hanswer, ← inactive?_eq_none_iff hforce]
    cases inactive? u with
    | none => exact ⟨iff_of_true rfl rfl, nofun⟩
    | some e => exact ⟨iff_of_false nofun nofun, fun e' he => by rw [Option.some.inj he]⟩

/-- Whoever comes with a profile whose address nobody has is signed in if there is room for a
refresh token. -/
theorem answer_of_newcomer {c : MemoryCache} {s : MemoryStore} {p : SocialProfile} {email : String}
    (hw : w.store = .memory s) (haddress : SocialProfile.normalEmail p.email = some email)
    (habsent : s.findByEmail email = none) (hcost : Password.costAllowed a.hashCost = true)
    (hc : w.cache = .memory c) (hr : ∀ key, (c.makeRoom m.now key).hasRoom key = true) :
    ∃ q, (((Operation.signInWithProfile p).perform a).perform m w).1 = .ok (.pair q) := by
  obtain ⟨hash, hx⟩ := profileEntrant_of_absent (a := a) (m := m) hw haddress habsent hcost
  have hcreate : w.store.createUser (socialCustomer p email hash) =
      (.ok ((socialCustomer p email hash).toUser (s.lastUser + 1)),
        .memory (s.createUser (socialCustomer p email hash)).2) := by
    rw [hw, Store.createUser, Store.ofMemory, createUser_of_absent habsent]
  obtain ⟨q, hq⟩ := complete_of_room (a := a) (m := m)
    (w := { w with store := .memory (s.createUser (socialCustomer p email hash)).2 })
    (Store.createUser_of_ok hcreate).2.1 trivial hc hr p.changes
  refine ⟨q, ?_⟩
  rw [Operation.perform_of_entrant (x := a.profileEntrant p) rfl, Action.perform_map,
    Action.perform_bind_ok hx, hq]
  rfl

/-- The first user of a store, who has come with a profile, is the only one. -/
theorem eq_of_first {p : SocialProfile} {email : String} (hw : w.store = .memory .empty)
    (haddress : SocialProfile.normalEmail p.email = some email)
    (hcost : Password.costAllowed a.hashCost = true) :
    ∃ hash, ∀ k u,
      (((Operation.signInWithProfile p).perform a).perform m w).2.store.findById k = .ok (some u) →
        u = (signInChanges ((socialCustomer p email hash).toUser 1) p.changes m).apply
          ((socialCustomer p email hash).toUser 1) := by
  obtain ⟨hash, hstore⟩ := store_of_newcomer (a := a) (m := m) hw haddress rfl hcost
  refine ⟨hash, fun k u hu => ?_⟩
  let first := (socialCustomer p email hash).toUser 1
  rw [hstore] at hu
  have hget : ((OrderedMap.empty.insert 1 first).insert 1
      ((signInChanges first p.changes m).apply first)).get? k = some u := Except.ok.inj hu
  rw [OrderedMap.get?_insert, OrderedMap.get?_insert, OrderedMap.get?_empty] at hget
  split at hget
  next => exact (Option.some.inj hget).symm
  next => cases hget

/-- A newcomer whose address another service has checked is let in at once. -/
theorem authenticate_after_registration :
    let a : Accounts := ⟨⟨⟨"secret", .hs256⟩, 60, 120⟩, {}, 4, 16⟩
    let w := Action.worldOf (.memory (.new 2)) (.memory .empty) .log
    let s : Step := ⟨0, .ofSeed 0, .signInWithProfile ⟨some "a@b.c", none, none, none, true⟩⟩
    ∃ p u, (a.step s w).1 = .ok (.pair p) ∧
      (a.step ⟨0, .ofSeed 0, .authenticate p.accessToken⟩ (a.step s w).2).1 =
        .ok (.user u false) := by
  intro a w s
  obtain ⟨p, hp⟩ : ∃ p, (a.step s w).1 = .ok (.pair p) :=
    answer_of_newcomer rfl rfl rfl rfl rfl fun _ => rfl
  obtain ⟨hash, hfirst⟩ := eq_of_first (a := a) (m := s.moment) (w := w)
    (p := ⟨some "a@b.c", none, none, none, true⟩) rfl rfl rfl
  obtain ⟨u, hfound, -, -, -, hlet⟩ :=
    a.authenticate_after_signing_in (w := w) Store.Sound.empty [] s rfl hp
  have hu := hfirst u.id u hfound
  have hfits : RefreshToken.Fits u.id := by
    rw [hu]
    show RefreshToken.Fits 1
    decide
  have hactive : u.IsActive := by
    rw [hu]
    exact ⟨rfl, rfl, fun _ _ => rfl, nofun⟩
  have hsecond : s.moment.second ≤ AccessClaims.lastSecond := by decide
  have hlive := AccessClaims.le_expiresAt_issue u.id u.role false hsecond 60
  exact ⟨p, u, hp, (hlet hfits ⟨0, .ofSeed 0, .authenticate p.accessToken⟩ rfl le_rfl hlive).1.2
    hactive⟩

/-- A newcomer whose address nobody has checked is signed in, and not let in. -/
theorem refused_after_registration :
    let a : Accounts := ⟨⟨⟨"secret", .hs256⟩, 60, 120⟩, {}, 4, 16⟩
    let w := Action.worldOf (.memory (.new 2)) (.memory .empty) .log
    let s : Step := ⟨0, .ofSeed 0, .signInWithProfile ⟨some "a@b.c", none, none, none, false⟩⟩
    w.store.Sound ∧ ∃ p, (a.step s w).1 = .ok (.pair p) ∧
      (a.step ⟨0, .ofSeed 0, .authenticate p.accessToken⟩ (a.step s w).2).1 =
        .error (.auth (.emailNotVerified "a@b.c")) := by
  intro a w s
  obtain ⟨p, hp⟩ : ∃ p, (a.step s w).1 = .ok (.pair p) :=
    answer_of_newcomer rfl rfl rfl rfl rfl fun _ => rfl
  obtain ⟨hash, hfirst⟩ := eq_of_first (a := a) (m := s.moment) (w := w)
    (p := ⟨some "a@b.c", none, none, none, false⟩) rfl rfl rfl
  obtain ⟨u₀, _, _, u, -, hfound, -, hid, hpair⟩ :=
    Operation.signed_in (x := a.profileEntrant _) rfl Store.Sound.empty hp
  have hu := hfirst u₀.id u hfound
  have hfits : RefreshToken.Fits u₀.id := by
    rw [← hid, hu]
    show RefreshToken.Fits 1
    decide
  have hinactive : inactive? u = some (.emailNotVerified "a@b.c") := by
    rw [hu]
    rfl
  have hsecond : s.moment.second ≤ AccessClaims.lastSecond := by decide
  have hlive := AccessClaims.le_expiresAt_issue u₀.id u.role false hsecond 60
  have hanswer := step_authenticate (a := a) (t := ⟨0, .ofSeed 0, .authenticate p.accessToken⟩)
    hfits (hpair ▸ rfl) le_rfl hlive hfound
  rw [hinactive] at hanswer
  exact ⟨.empty, p, hp, hanswer⟩

end Accounts

end AuthCore
