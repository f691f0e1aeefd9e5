import AuthCore.Proofs.Account.Users
import AuthCore.Proofs.Store.Rows
import AuthCore.Proofs.Token.Exchange

/-!
# What an operation writes

A full sign-in finds a known user (`Operation.Finds`) or registers a new one
(`Operation.Registers`), each for reasons of its own, and updates that user. Forced sign-outs and
changes of the password update a user as well (`Operation.Updates`), and nothing else writes users.
So an operation touches the row of one user at most, and what it does to that row is known
(`Operation.touches`).
-/

namespace AuthCore

open AuthCore.Frame

variable {a : Accounts} {m : Moment} {w v : World} {op : Operation} {u : User} {n : NewUser}
  {extra : UserChanges}

/-! ### Reasons -/

/-- The profile that an operation gets from another service, if any. -/
def Operation.profile? (m : Moment) (w : World) : Operation → Option SocialProfile
  | signInWithProfile p => some p
  | signInWithProvider provider code => ((provider.exchangeCode code).perform m w).1.toOption
  | _ => none

/-- An operation has its guess at the one-time code of a username accepted, and goes on to sign
somebody in. -/
def Operation.Proves (a : Accounts) (m : Moment) (w : World) (op : Operation) (name : Username) :
    Prop :=
  ∃ code, (op = .signInWithCode name code ∨ op = .verifyCode name code) ∧
    ((Otp.verify a.otp name code).perform m w).1 = .ok ()

/-- What a profile adds to a sign-in. -/
def SocialProfile.changes (p : SocialProfile) : UserChanges :=
  { emailVerified := if p.emailVerified then some true else none }

/-- A full sign-in has found out that a known user comes. -/
inductive Operation.Finds (a : Accounts) (m : Moment) (w : World) :
    Operation → User → UserChanges → Prop
  | password {name password roles u} (found : w.store.findByUsername name roles = .ok (some u))
      (fits : Accounts.passwordFits password u.hashedPassword = true) (enabled : u.isEnable = true)
      (verified : Accounts.unverified? name u = none) :
      Finds a m w (.signInWithPassword name password roles) u {}
  | code {name code u} (passes : ((Otp.verify a.otp name code).perform m w).1 = .ok ())
      (found : w.store.findByUsername name none = .ok (some u)) (enabled : u.isEnable = true)
      (unblocked : u.isBlocked = false) :
      Finds a m w (.signInWithCode name code) u (.verified {} name)
  | known {name code u} (passes : ((Otp.verify a.otp name code).perform m w).1 = .ok ())
      (found : w.store.findByUsername name none = .ok (some u)) :
      Finds a m w (.verifyCode name code) u (.verified {} name)
  | profile {op p email u} (brings : op.profile? m w = some p)
      (address : SocialProfile.normalEmail p.email = some email)
      (found : w.store.findByUsername (.email email) none = .ok (some u))
      (enabled : u.isEnable = true) (unblocked : u.isBlocked = false)
      (reviewed : Accounts.inReview? u = none) : Finds a m w op u p.changes
  | reset {u old new hash} :
      Finds a m w (.changePassword u old new true) u (Accounts.passwordChanges hash)

/-- A full sign-in has found out that a new user comes. -/
inductive Operation.Registers (a : Accounts) (m : Moment) (w : World) :
    Operation → NewUser → UserChanges → Prop
  | code {name code} (passes : ((Otp.verify a.otp name code).perform m w).1 = .ok ())
      (absent : w.store.findByUsername name none = .ok none) :
      Registers a m w (.signInWithCode name code) (Accounts.provedCustomer name) (.verified {} name)
  | profile {op p email hash} (brings : op.profile? m w = some p)
      (address : SocialProfile.normalEmail p.email = some email)
      (absent : w.store.findByUsername (.email email) none = .ok none) :
      Registers a m w op (Accounts.socialCustomer p email hash) p.changes

/-! ### Who comes -/

namespace Accounts

theorem store_of_verify {name : Username} {code : String} {r : Answer Unit}
    (h : (Otp.verify a.otp name code).perform m w = (r, v)) : v.store = w.store := by
  have hkeep := Otp.keeps_verify (allowsCode_store name) a.otp code m w
  rwa [h] at hkeep

/-- Hashing a password leaves the world alone. -/
theorem world_of_hashPassword {password : String} {r : Answer String}
    (h : (a.hashPassword password).perform m w = (r, v)) : v = w := by
  obtain ⟨-, rfl⟩ := Prod.mk.inj h
  rfl

theorem eq_pair_of_issue {t : Tokens} {user : Int} {role : Role} {limited : Bool} {p : TokenPair}
    (h : (t.issue user role limited).perform m w = (.ok p, v)) :
    p = t.pair user role limited m := by
  obtain ⟨_, _, hm, h₁⟩ := Action.perform_bind_eq_ok.1 h
  obtain ⟨hm, -⟩ := Prod.mk.inj hm
  obtain rfl := Except.ok.inj hm
  obtain ⟨_, _, -, h₂⟩ := Action.perform_bind_eq_ok.1 h₁
  obtain ⟨_, _, -, h₃⟩ := Action.perform_bind_eq_ok.1 h₂
  exact (Except.ok.inj (Prod.mk.inj h₃).1).symm

/-- A welcome answers the pair of tokens that is made for the user. -/
theorem eq_pair_of_welcome {p : TokenPair} (h : (a.welcome u).perform m w = (.ok p, v)) :
    p = a.tokens.pair u.id u.role false m := by
  obtain ⟨q, _, hi, h₁⟩ := Action.perform_bind_eq_ok.1 h
  obtain ⟨_, _, -, h₂⟩ := Action.perform_bind_eq_ok.1 h₁
  obtain rfl := Except.ok.inj (Prod.mk.inj h₂).1
  exact eq_pair_of_issue hi

theorem findOrRegister_inversion {name : Username}
    (h : (findOrRegister name).perform m w = (.ok u, v)) :
    (w.store.findByUsername name none = .ok (some u) ∧ u.isEnable = true ∧ u.isBlocked = false ∧
        v.store = w.store) ∨
      w.store.findByUsername name none = .ok none ∧
        w.store.createUser (provedCustomer name) = (.ok u, v.store) := by
  obtain ⟨o, _, hq, h₁⟩ := Action.perform_bind_eq_ok.1 h
  obtain ⟨hfound, rfl⟩ := Action.query_eq_ok.1 hq
  cases o with
  | some u' =>
    obtain ⟨_, _, he, h₂⟩ := Action.perform_bind_eq_ok.1 h₁
    obtain ⟨henabled, rfl⟩ := Action.require_eq_ok.1 he
    obtain ⟨_, _, hb, h₃⟩ := Action.perform_bind_eq_ok.1 h₂
    obtain ⟨hblocked, rfl⟩ := Action.require_eq_ok.1 hb
    simp only [Action.perform_pure, Prod.mk.injEq, Except.ok.injEq] at h₃
    obtain ⟨rfl, rfl⟩ := h₃
    exact .inl ⟨hfound, henabled, by simpa using hblocked, rfl⟩
  | none =>
    obtain ⟨u', v₁, hc, h₂⟩ := Action.perform_bind_eq_ok.1 h₁
    obtain ⟨_, v₂, hl, h₃⟩ := Action.perform_bind_eq_ok.1 h₂
    simp only [Action.perform_change, Action.perform_log, Action.perform_pure, Prod.mk.injEq,
      Except.ok.injEq] at hc hl h₃
    obtain ⟨hu, rfl⟩ := hc
    obtain ⟨-, rfl⟩ := hl
    obtain ⟨rfl, rfl⟩ := h₃
    exact .inr ⟨hfound, Prod.ext hu rfl⟩

theorem findOrCreate_inversion {p : SocialProfile} {email : String}
    (h : (a.findOrCreate p email).perform m w = (.ok u, v)) :
    (w.store.findByUsername (.email email) none = .ok (some u) ∧ v.store = w.store) ∨
      w.store.findByUsername (.email email) none = .ok none ∧
        ∃ hash, w.store.createUser (socialCustomer p email hash) = (.ok u, v.store) := by
  obtain ⟨o, _, hq, h₁⟩ := Action.perform_bind_eq_ok.1 h
  obtain ⟨hfound, rfl⟩ := Action.query_eq_ok.1 hq
  rw [Store.findByEmail_eq] at hfound
  cases o with
  | some u' =>
    simp only [Action.perform_pure, Prod.mk.injEq, Except.ok.injEq] at h₁
    obtain ⟨rfl, rfl⟩ := h₁
    exact .inl ⟨hfound, rfl⟩
  | none =>
    obtain ⟨_, _, hm, h₂⟩ := Action.perform_bind_eq_ok.1 h₁
    obtain ⟨-, rfl⟩ := Prod.mk.inj hm
    obtain ⟨hash, _, hh, h₃⟩ := Action.perform_bind_eq_ok.1 h₂
    obtain rfl := world_of_hashPassword hh
    simp only [Action.perform_change, Prod.mk.injEq] at h₃
    obtain ⟨hu, rfl⟩ := h₃
    exact .inr ⟨hfound, hash, Prod.ext hu rfl⟩

theorem profileUser_inversion {p : SocialProfile} {u' : User}
    (h : (profileUser p u').perform m w = (.ok (u, extra), v)) :
    u' = u ∧ extra = p.changes ∧ v = w ∧ u.isEnable = true ∧ u.isBlocked = false ∧
      inReview? u = none := by
  obtain ⟨_, _, he, h₁⟩ := Action.perform_bind_eq_ok.1 h
  obtain ⟨henabled, rfl⟩ := Action.require_eq_ok.1 he
  obtain ⟨_, _, hb, h₂⟩ := Action.perform_bind_eq_ok.1 h₁
  obtain ⟨hblocked, rfl⟩ := Action.require_eq_ok.1 hb
  cases hr : inReview? u' with
  | some e =>
    simp only [hr, Action.perform_reject, Prod.mk.injEq, reduceCtorEq, false_and] at h₂
  | none =>
    simp only [hr, Action.perform_pure, Prod.mk.injEq, Except.ok.injEq] at h₂
    obtain ⟨⟨rfl, rfl⟩, rfl⟩ := h₂
    exact ⟨rfl, rfl, rfl, henabled, by simpa using hblocked, hr⟩

theorem passwordEntrant_inversion {name : Username} {password : String}
    {roles : Option (List Role)}
    (h : (passwordEntrant name password roles).perform m w = (.ok (u, extra), v)) :
    w.store.findByUsername name roles = .ok (some u) ∧
      passwordFits password u.hashedPassword = true ∧ u.isEnable = true ∧
      unverified? name u = none ∧ extra = {} ∧ v = w := by
  obtain ⟨o, _, hq, h₁⟩ := Action.perform_bind_eq_ok.1 h
  obtain ⟨hfound, rfl⟩ := Action.query_eq_ok.1 hq
  obtain ⟨u', _, ho, h₂⟩ := Action.perform_bind_eq_ok.1 h₁
  obtain ⟨rfl, rfl⟩ := Action.orReject_eq_ok.1 ho
  cases hfits : passwordFits password u'.hashedPassword with
  | false =>
    simp only [hfits, Bool.not_false, if_true] at h₂
    obtain ⟨_, _, -, h₃⟩ := Action.perform_bind_eq_ok.1 h₂
    cases h₃
  | true =>
    simp only [hfits, Bool.not_true, Bool.false_eq_true, if_false] at h₂
    obtain ⟨_, _, he, h₃⟩ := Action.perform_bind_eq_ok.1 h₂
    obtain ⟨henabled, rfl⟩ := Action.require_eq_ok.1 he
    cases hv : unverified? name u' with
    | some e => simp only [hv, Action.perform_reject, Prod.mk.injEq, reduceCtorEq, false_and] at h₃
    | none =>
      simp only [hv, Action.perform_pure, Prod.mk.injEq, Except.ok.injEq] at h₃
      obtain ⟨⟨rfl, rfl⟩, rfl⟩ := h₃
      exact ⟨hfound, hfits, henabled, hv, rfl, rfl⟩

end Accounts

namespace Operation

/-- A profile that was brought is looked up, or a new user is made of it. -/
theorem cases_of_profileEntrant {p : SocialProfile} {w' : World} (hs : w'.store = w.store)
    (hp : op.profile? m w = some p)
    (h : (a.profileEntrant p).perform m w' = (.ok (u, extra), v)) :
    (op.Finds a m w u extra ∧ v.store = w.store) ∨
      ∃ n, op.Registers a m w n extra ∧ w.store.createUser n = (.ok u, v.store) := by
  obtain ⟨email, _, ho, h₁⟩ := Action.perform_bind_eq_ok.1 h
  obtain ⟨haddress, rfl⟩ := Action.orReject_eq_ok.1 ho
  obtain ⟨u', v', hf, h₂⟩ := Action.perform_bind_eq_ok.1 h₁
  obtain ⟨rfl, rfl, rfl, henabled, hblocked, hreview⟩ := Accounts.profileUser_inversion h₂
  have hcases := Accounts.findOrCreate_inversion hf
  rw [hs] at hcases
  rcases hcases with ⟨hfound, hv⟩ | ⟨habsent, hash, hcreate⟩
  · exact .inl ⟨.profile hp haddress hfound henabled hblocked hreview, hv⟩
  · exact .inr ⟨_, .profile hp haddress habsent, hcreate⟩

/-- Whoever comes was found, or was registered just now. -/
theorem entrant_cases {x : Action (User × UserChanges)} (h : op.entrant? a = some x)
    (hx : x.perform m w = (.ok (u, extra), v)) :
    (op.Finds a m w u extra ∧ v.store = w.store) ∨
      ∃ n, op.Registers a m w n extra ∧ w.store.createUser n = (.ok u, v.store) := by
  cases op
  case signInWithPassword name password roles =>
    cases h
    obtain ⟨hfound, hfits, henabled, hverified, rfl, rfl⟩ := Accounts.passwordEntrant_inversion hx
    exact .inl ⟨.password hfound hfits henabled hverified, rfl⟩
  case signInWithCode name code =>
    cases h
    obtain ⟨_, v₁, hv, h₁⟩ := Action.perform_bind_eq_ok.1 hx
    obtain ⟨u', v₂, hf, h₂⟩ := Action.perform_bind_eq_ok.1 h₁
    simp only [Action.perform_pure, Prod.mk.injEq, Except.ok.injEq] at h₂
    obtain ⟨⟨rfl, rfl⟩, rfl⟩ := h₂
    have hpasses : ((Otp.verify a.otp name code).perform m w).1 = .ok () := congrArg Prod.fst hv
    have hcases := Accounts.findOrRegister_inversion hf
    rw [Accounts.store_of_verify hv] at hcases
    rcases hcases with ⟨hfound, henabled, hblocked, hs⟩ | ⟨habsent, hcreate⟩
    · exact .inl ⟨.code hpasses hfound henabled hblocked, hs⟩
    · exact .inr ⟨_, .code hpasses habsent, hcreate⟩
  case signInWithProfile p =>
    cases h
    exact cases_of_profileEntrant rfl rfl hx
  case signInWithProvider provider code =>
    cases h
    obtain ⟨p, v₁, hp, h₁⟩ := Action.perform_bind_eq_ok.1 hx
    obtain ⟨_, v₂, hl, h₂⟩ := Action.perform_bind_eq_ok.1 h₁
    have hkeep := provider.keeps_exchangeCode code m w
    have hprofile : (signInWithProvider provider code).profile? m w = some p := by
      rw [profile?, hp]
      rfl
    rw [hp] at hkeep
    obtain ⟨-, rfl⟩ := Prod.mk.inj hl
    refine cases_of_profileEntrant ?_ hprofile h₂
    exact hkeep.2
  case changePassword u' old new limited =>
    cases limited with
    | false => cases h
    | true =>
      cases h
      obtain ⟨hash, _, hh, h₁⟩ := Action.perform_bind_eq_ok.1 hx
      obtain rfl := Accounts.world_of_hashPassword hh
      simp only [Action.perform_pure, Prod.mk.injEq, Except.ok.injEq] at h₁
      obtain ⟨⟨rfl, rfl⟩, rfl⟩ := h₁
      exact .inl ⟨.reset, rfl⟩
  case verifyCode name code =>
    cases h
    obtain ⟨u', _, hu, h₁⟩ := Action.perform_bind_eq_ok.1 hx
    obtain ⟨o, _, hq, h₂⟩ := Action.perform_bind_eq_ok.1 hu
    obtain ⟨hfound, rfl⟩ := Action.query_eq_ok.1 hq
    obtain ⟨rfl, rfl⟩ := Action.orReject_eq_ok.1 h₂
    obtain ⟨_, v₁, hv, h₃⟩ := Action.perform_bind_eq_ok.1 h₁
    simp only [Action.perform_pure, Prod.mk.injEq, Except.ok.injEq] at h₃
    obtain ⟨⟨rfl, rfl⟩, rfl⟩ := h₃
    exact .inl ⟨.known (congrArg Prod.fst hv) hfound, Accounts.store_of_verify hv⟩
  all_goals cases h

/-! ### What is written -/

/-- An operation updates the user with a number. -/
inductive Updates (a : Accounts) (m : Moment) (w : World) : Operation → Int → UserChanges → Prop
  | signIn {op : Operation} {u : User} {extra : UserChanges} (finds : Finds a m w op u extra) :
      Updates a m w op u.id (Accounts.signInChanges u extra m)
  | signOut {actor : User} {target : Option Int} :
      Updates a m w (.signOut actor target) (target.getD actor.id) { isForceLogin := some true }
  | changePassword {u : User} {old : Option String} {new hash : String} :
      Updates a m w (.changePassword u old new false) u.id (Accounts.passwordChanges hash)

/-- What an operation does to the row under a number, and to the last number, as the store becomes
another one. -/
inductive Touches (a : Accounts) (m : Moment) (w : World) (op : Operation) (id : Int) (s : Store) :
    Prop
  | leaves (row : s.row? id = w.store.row? id) (last : s.lastNumber = w.store.lastNumber)
  | updates {c : UserChanges} {r : UserRow} (why : op.Updates a m w id c)
      (found : w.store.row? id = some r) (row : s.row? id = some (r.update c))
      (last : s.lastNumber = w.store.lastNumber)
  | registers {n : NewUser} {extra : UserChanges} {s' : Store} (why : op.Registers a m w n extra)
      (adds : w.store.Adds n s') (number : id = w.store.lastNumber + 1)
      (row : s.row? id =
        some ((UserRow.ofNew n id).update (Accounts.signInChanges (n.toUser id) extra m)))
      (last : s.lastNumber = id)

theorem touches_of_sameUsers {s : Store} (h : w.store.SameUsers s) :
    ∃ id, (∀ k, k ≠ id → s.row? k = w.store.row? k) ∧ op.Touches a m w id s :=
  ⟨0, fun k _ => h.row?_eq k, .leaves (h.row?_eq 0) h.lastNumber_eq⟩

theorem touches_of_updateUser {id : Int} {c : UserChanges} (h : op.Updates a m w id c) :
    (∀ k, k ≠ id → (w.store.updateUser id c).2.row? k = w.store.row? k) ∧
      op.Touches a m w id (w.store.updateUser id c).2 := by
  have hlast := w.store.lastNumber_updateUser id c
  rcases w.store.row?_updateUser id c with ⟨-, hsame⟩ | ⟨r, hr, hrow⟩
  · exact ⟨fun k _ => hsame k, .leaves (hsame id) hlast⟩
  · refine ⟨fun k hk => ?_, .updates h hr ?_ hlast⟩
    · rw [hrow, if_neg hk]
    · rw [hrow, if_pos rfl]

theorem touches_of_createUser (h : op.Registers a m w n extra) (hs : w.store.Sound) {s : Store}
    (hc : w.store.createUser n = (.ok u, s)) :
    (∀ k, k ≠ u.id → (s.updateUser u.id (Accounts.signInChanges u extra m)).2.row? k =
        w.store.row? k) ∧
      op.Touches a m w u.id (s.updateUser u.id (Accounts.signInChanges u extra m)).2 := by
  obtain ⟨-, hfound, -, hwritable⟩ := Store.createUser_of_ok hc
  obtain ⟨rfl, hadds⟩ := hs.adds hc
  let id := w.store.lastNumber + 1
  have hid : (n.toUser id).id = id := rfl
  have hnew : s.row? id = some (.ofNew n id) := by rw [hadds.row?, if_pos rfl]
  have hlast := s.lastNumber_updateUser id (Accounts.signInChanges (n.toUser id) extra m)
  rcases s.row?_updateUser id (Accounts.signInChanges (n.toUser id) extra m) with
    ⟨hnone, -⟩ | ⟨r, hr, hrow⟩
  · exact absurd hfound (hnone hwritable _)
  · obtain rfl := Option.some.inj (hnew.symm.trans hr)
    rw [hid]
    refine ⟨fun k hk => ?_, .registers h hadds rfl ?_ (hlast.trans hadds.lastNumber)⟩
    · rw [hrow, if_neg hk, hadds.row?, if_neg hk]
    · rw [hrow, if_pos rfl]

/-- Whoever comes is updated, whatever else happens. -/
theorem store_of_coming {x : Action (User × UserChanges)} (h : op.entrant? a = some x)
    (hx : x.perform m w = (.ok (u, extra), v)) : ((op.perform a).perform m w).2.store =
      (v.store.updateUser u.id (Accounts.signInChanges u extra m)).2 := by
  rcases hu : v.store.updateUser u.id (Accounts.signInChanges u extra m) with ⟨e | u', s⟩
  · rw [perform_of_entrant h, Action.perform_map, Action.perform_bind_ok hx,
      Accounts.perform_complete_of_error hu]
  · exact store_of_entrant h hx hu

/-- What a full sign-in does is known from who comes; if nobody comes it does nothing. -/
theorem store_after_entrant {x : Action (User × UserChanges)} (h : op.entrant? a = some x)
    (m : Moment) (w : World) :
    ((op.perform a).perform m w).2.store = w.store ∨
      ∃ u extra v, x.perform m w = (.ok (u, extra), v) ∧ ((op.perform a).perform m w).2.store =
        (v.store.updateUser u.id (Accounts.signInChanges u extra m)).2 := by
  have honly := onlyCreates_entrant h m w
  rcases hx : x.perform m w with ⟨e | ⟨u, extra⟩, v⟩ <;> rw [hx] at honly
  · refine .inl ?_
    rw [perform_of_entrant h, Action.perform_map, Action.perform_bind_error hx]
    exact honly.resolve_right fun ⟨_, _, _, hb, _⟩ => nomatch hb
  · exact .inr ⟨u, extra, v, rfl, store_of_coming h hx⟩

theorem touches_of_entrant {x : Action (User × UserChanges)} (h : op.entrant? a = some x)
    (m : Moment) (hs : w.store.Sound) :
    ∃ id, (∀ k, k ≠ id → ((op.perform a).perform m w).2.store.row? k = w.store.row? k) ∧
      op.Touches a m w id ((op.perform a).perform m w).2.store := by
  rcases store_after_entrant h m w with hstore | ⟨u, extra, v, hx, hstore⟩
  · exact touches_of_sameUsers (hstore ▸ .refl _)
  · rw [hstore]
    refine ⟨u.id, ?_⟩
    rcases entrant_cases h hx with ⟨hfinds, hv⟩ | ⟨n, hregisters, hc⟩
    · rw [hv]
      exact touches_of_updateUser (.signIn hfinds)
    · exact touches_of_createUser hregisters hs hc

end Operation

/-- The store stays as it is, or a user is updated for some reason. -/
def OnlyUpdates {α : Type} (Why : Int → UserChanges → Prop) (_ : Moment) (u : World) (_ : Answer α)
    (w : World) : Prop :=
  w.store = u.store ∨ ∃ id c, Why id c ∧ w.store = (u.store.updateUser id c).2

namespace OnlyUpdates

variable {α : Type} {Why : Int → UserChanges → Prop}

theorem enters : Frame.store.Enters (OnlyUpdates (α := α) Why) where
  before {m u v w r} h h' := by
    rw [OnlyUpdates, ← (h : v.store = u.store)]
    exact h'
  error h := .inl h
  logged h := h

/-- An update, after which only something is logged. -/
theorem change {id : Int} {c : UserChanges} (h : Why id c) (e : User → Event) (f : User → α) :
    (do
      let u ← Action.change (·.updateUser id c)
      Action.log (e u)
      return f u : Action α).Ensures (OnlyUpdates Why) := by
  intro m w
  refine .inr ⟨id, c, h, ?_⟩
  rw [Action.perform_bind, Action.perform_change]
  rcases w.store.updateUser id c with ⟨e | u, s⟩
  · rfl
  · rfl

theorem signOut {actor : User} {target : Option Int}
    (h : Why (target.getD actor.id) { isForceLogin := some true }) :
    (Accounts.signOut actor target).Ensures (OnlyUpdates Why) :=
  Action.Ensures.bind enters (keeps_require _ _) fun _ => change h _ _

theorem changePassword {old : Option String} {new : String}
    (h : ∀ hash, Why u.id (Accounts.passwordChanges hash)) :
    (a.changePassword u old new false).Ensures (OnlyUpdates Why) := by
  rw [Accounts.changePassword_full]
  refine Action.Ensures.bind enters (Accounts.keeps_requireOldPassword u old) fun _ => ?_
  refine Action.Ensures.bind enters (Accounts.keeps_hashPassword new) fun hash => ?_
  exact change (h hash) (fun _ => .passwordChanged u.id) fun _ => none

end OnlyUpdates

namespace Operation

theorem touches_of_onlyUpdates {r : Answer Result} (h : OnlyUpdates (op.Updates a m w) m w r v) :
    ∃ id, (∀ k, k ≠ id → v.store.row? k = w.store.row? k) ∧ op.Touches a m w id v.store := by
  rcases h with hsame | ⟨id, c, hwhy, hstore⟩
  · exact touches_of_sameUsers (hsame ▸ .refl _)
  · rw [hstore]
    exact ⟨id, touches_of_updateUser hwhy⟩

/-- An operation touches the row of one user at most, and what it does to that row has a reason. -/
theorem touches (a : Accounts) (op : Operation) (m : Moment) (hs : w.store.Sound) :
    ∃ id, (∀ k, k ≠ id → ((op.perform a).perform m w).2.store.row? k = w.store.row? k) ∧
      op.Touches a m w id ((op.perform a).perform m w).2.store := by
  cases op
  case signInWithPassword => exact touches_of_entrant rfl m hs
  case signInWithCode => exact touches_of_entrant rfl m hs
  case signInWithProfile => exact touches_of_entrant rfl m hs
  case signInWithProvider => exact touches_of_entrant rfl m hs
  case verifyCode => exact touches_of_entrant rfl m hs
  case signOut actor target =>
    exact touches_of_onlyUpdates (Action.ensures_map.2 (OnlyUpdates.signOut .signOut) m w)
  case changePassword u old new limited =>
    cases limited with
    | true => exact touches_of_entrant rfl m hs
    | false =>
      have hchange : (a.changePassword u old new false).Ensures
          (OnlyUpdates ((changePassword u old new false).Updates a m w)) :=
        OnlyUpdates.changePassword fun _ => .changePassword
      exact touches_of_onlyUpdates (Action.ensures_map.2 hchange m w)
  all_goals exact touches_of_sameUsers (sameUsers_perform rfl m w)

/-- Where a row comes from: it goes on from before, or it is that of a new user, who has no username
that anybody had. -/
theorem row_cases (a : Accounts) (op : Operation) (m : Moment) (hs : w.store.Sound) {id : Int}
    {r : UserRow} (hr : ((op.perform a).perform m w).2.store.row? id = some r) :
    (∃ r₀, w.store.row? id = some r₀ ∧ r₀.SameStanding r) ∨
      id = w.store.lastNumber + 1 ∧ ∃ n extra s, op.Registers a m w n extra ∧
        w.store.Adds n s ∧ (UserRow.ofNew n id).SameStanding r := by
  obtain ⟨k, hothers, htouches⟩ := op.touches a m hs
  by_cases hk : id = k
  · subst hk
    cases htouches with
    | leaves hrow => exact .inl ⟨r, hrow.symm.trans hr, .refl r⟩
    | updates hwhy hfound hrow =>
      obtain rfl := Option.some.inj (hrow.symm.trans hr)
      exact .inl ⟨_, hfound, .update _ _⟩
    | registers hwhy hadds hnumber hrow =>
      obtain rfl := Option.some.inj (hrow.symm.trans hr)
      exact .inr ⟨hnumber, _, _, _, hwhy, hadds, .update _ _⟩
  · exact .inl ⟨r, (hothers id hk).symm.trans hr, .refl r⟩

theorem lastNumber_le (a : Accounts) (op : Operation) (m : Moment) (hs : w.store.Sound) :
    w.store.lastNumber ≤ ((op.perform a).perform m w).2.store.lastNumber := by
  obtain ⟨k, -, htouches⟩ := op.touches a m hs
  cases htouches with
  | leaves _ hlast => exact hlast.ge
  | updates _ _ _ hlast => exact hlast.ge
  | registers _ _ hnumber _ hlast => omega

/-- An operation gives one number at most. -/
theorem lastNumber_le_add_one (a : Accounts) (op : Operation) (m : Moment) (hs : w.store.Sound) :
    ((op.perform a).perform m w).2.store.lastNumber ≤ w.store.lastNumber + 1 := by
  obtain ⟨k, -, htouches⟩ := op.touches a m hs
  cases htouches with
  | leaves _ hlast => omega
  | updates _ _ _ hlast => omega
  | registers _ _ hnumber _ hlast => omega

theorem sound_perform (a : Accounts) (op : Operation) (m : Moment) (hs : w.store.Sound) :
    ((op.perform a).perform m w).2.store.Sound :=
  op.keeps_perform allowsWrites_sound allowsTokens_kept (fun name _ => allowsCode_kept name) m w hs

/-- Whoever is signed in was found, or was registered just now, has the row that the sign-in has
written, and gets a pair of tokens. -/
theorem signed_in {x : Action (User × UserChanges)} (h : op.entrant? a = some x)
    (hs : w.store.Sound) {p : TokenPair}
    (hp : ((op.perform a).perform m w).1 = .ok (.pair p)) :
    ∃ u extra r u', ((op.Finds a m w u extra ∧ w.store.row? u.id = some r) ∨
        ∃ n, op.Registers a m w n extra ∧ u = n.toUser (w.store.lastNumber + 1) ∧
          r = .ofNew n u.id) ∧
      ((op.perform a).perform m w).2.store.findById u.id = .ok (some u') ∧
      (r.update (Accounts.signInChanges u extra m)).Describes u' ∧ u'.id = u.id ∧
      p = a.tokens.pair u.id u'.role false m := by
  rcases admits_cases h m w with ⟨-, ⟨e, he⟩, -⟩ | ⟨u, extra, v, u', s, hx, -, hu, -, hperform⟩
  · cases hp.symm.trans he
  have hstore := store_of_entrant h hx hu
  obtain ⟨r, hr, hr', hdescribes⟩ := Store.row?_of_updateUser hu
  have hid : u'.id = u.id := by
    have hsound := op.sound_perform a m hs
    rw [hstore] at hsound
    exact (congrArg User.id hdescribes.eq).trans (hsound.of_row? hr').1
  refine ⟨u, extra, r, u', ?_, hstore ▸ Store.findById_of_updateUser hu, hdescribes, hid, ?_⟩
  · rcases entrant_cases h hx with ⟨hfinds, hv⟩ | ⟨n, hregisters, hc⟩
    · exact .inl ⟨hfinds, hv ▸ hr⟩
    · obtain ⟨rfl, hadds⟩ := hs.adds hc
      have hnew : v.store.row? (w.store.lastNumber + 1) =
          some (.ofNew n (w.store.lastNumber + 1)) := by
        rw [hadds.row?, if_pos rfl]
      exact .inr ⟨n, hregisters, rfl, Option.some.inj (hr.symm.trans hnew)⟩
  · rw [hperform, Action.perform_map] at hp
    rcases hw : (a.welcome u').perform m { v with store := s } with ⟨e | q, v'⟩ <;> rw [hw] at hp
    · cases hp
    · obtain rfl := Result.pair.inj (Except.ok.inj hp)
      rw [← hid]
      exact Accounts.eq_pair_of_welcome hw

end Operation

end AuthCore
