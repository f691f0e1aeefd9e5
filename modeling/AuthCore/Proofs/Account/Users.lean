import AuthCore.Proofs.Account.Frame
import AuthCore.Proofs.Store.Users
import AuthCore.Proofs.Text.Lowercase

/-!
# What operations do to users

Users are written by full sign-ins, by forced sign-outs and by changes of the password, each time in
one update.

A full sign-in finds out who comes (`Operation.entrant?`), updates that user, and welcomes the user
with a pair of tokens (`Accounts.welcome`). Until it is known who comes nothing happens to the
store, but that a new user may be created, and then it is that one who comes
(`Operation.onlyCreates_entrant`); the welcome does nothing to the store either. So a full sign-in
that fails has left the store alone, or it has signed somebody in all the same
(`Operation.admits_cases`).
-/

namespace AuthCore

open AuthCore.Frame

theorem Action.reject_bind {α β : Type} (e : AuthError) (f : α → Action β) :
    (reject e >>= f) = reject e := rfl

/-- The cache stays as it is. -/
def Frame.cache : Frame where
  Allows _ w w' := w'.cache = w.cache
  outside hc _ := hc
  trans h h' := h'.trans h

theorem Frame.allowsWrites_cache : Frame.cache.AllowsWrites :=
  ⟨fun _ _ _ => rfl, fun _ _ _ _ => rfl, fun _ _ _ => rfl, fun _ _ _ _ => rfl, fun _ _ _ => rfl⟩

namespace Accounts

variable {a : Accounts} {m : Moment} {w : World}

/-! ### The end of a sign-in -/

/-- The end of a full sign-in: the user has been updated and gets a pair of tokens. -/
def welcome (a : Accounts) (u : User) : Action TokenPair := do
  let pair ← a.tokens.issue u.id u.role false
  Action.log (.signedIn u.id)
  return pair

theorem keeps_welcome {F : Frame} (h : F.AllowsTokens) (u : User) : F.Keeps (a.welcome u) :=
  (Tokens.keeps_issue h _ _ _).bind fun _ => (keeps_log _).bind fun _ => keeps_pure _

theorem perform_welcome_of_ok {u : User} {p : TokenPair} {w' : World}
    (h : (a.tokens.issue u.id u.role false).perform m w = (.ok p, w')) :
    ((a.welcome u).perform m w).1 = .ok p := by
  rw [welcome, Action.perform_bind_ok h]
  rfl

theorem perform_welcome_of_error {u : User} {e : Error} {w' : World}
    (h : (a.tokens.issue u.id u.role false).perform m w = (.error e, w')) :
    (a.welcome u).perform m w = (.error e, w') := by
  rw [welcome, Action.perform_bind_error h]

section Complete

variable {u v : User} {extra : UserChanges} {s : Store}

theorem perform_complete_of_ok
    (h : w.store.updateUser u.id (signInChanges u extra m) = (.ok v, s)) :
    (a.complete u extra).perform m w = (a.welcome v).perform m { w with store := s } := by
  have hx : (Action.change (·.updateUser u.id (signInChanges u extra m))).perform m w =
      (.ok v, { w with store := s }) := by
    rw [Action.perform_change, h]
  rw [complete, Action.perform_bind_ok Action.perform_read, Action.perform_bind_ok hx]
  rfl

theorem perform_complete_of_error {e : Error}
    (h : w.store.updateUser u.id (signInChanges u extra m) = (.error e, s)) :
    (a.complete u extra).perform m w = (.error e, { w with store := s }) := by
  have hx : (Action.change (·.updateUser u.id (signInChanges u extra m))).perform m w =
      (.error e, { w with store := s }) := by
    rw [Action.perform_change, h]
  rw [complete, Action.perform_bind_ok Action.perform_read, Action.perform_bind_error hx]

end Complete

/-! ### Who comes -/

/-- Who comes with a password. -/
def passwordEntrant (name : Username) (password : String) (roles : Option (List Role)) :
    Action (User × UserChanges) := do
  let u ← Action.orReject .userNotFound (← Action.query (·.findByUsername name roles))
  if !passwordFits password u.hashedPassword then
    Action.log (.passwordMismatch name.value)
    Action.reject .userNotFound
  else
    requireEnabled u
    match unverified? name u with
    | some e => Action.reject e
    | none => return (u, {})

/-- Who comes with a one-time code. -/
def codeEntrant (a : Accounts) (name : Username) (code : String) :
    Action (User × UserChanges) := do
  Otp.verify a.otp name code
  let u ← findOrRegister name
  return (u, UserChanges.verified {} name)

/-- Who comes with a one-time code and is known. -/
def knownEntrant (a : Accounts) (name : Username) (code : String) :
    Action (User × UserChanges) := do
  let u ← needUser name
  Otp.verify a.otp name code
  return (u, UserChanges.verified {} name)

/-- The user of a profile, unless something forbids the sign-in. -/
def profileUser (p : SocialProfile) (u : User) : Action (User × UserChanges) := do
  requireEnabled u
  requireUnblocked u
  match inReview? u with
  | some e => Action.reject e
  | none => return (u, { emailVerified := if p.emailVerified then some true else none })

/-- Whether nothing is left of an address shows before its letters are made small as well as after
that. -/
theorem profileEmail_eq (p : SocialProfile) :
    profileEmail p = SocialProfile.normalEmail p.email := by
  cases h : p.email with
  | none => simp only [profileEmail, SocialProfile.normalEmail, h, Option.map_none,
      Option.filter_none]
  | some e =>
    have hempty : (Text.lower (Text.trim e) != "") = (Text.trim e != "") := by
      rw [Bool.eq_iff_iff, bne_iff_ne, bne_iff_ne, Ne, Ne, Text.lower_eq_empty_iff]
    simp only [profileEmail, SocialProfile.normalEmail, h, Option.map_some, Option.filter_some,
      hempty]
    split <;> rfl

/-- Who comes with the profile of another service. -/
def profileEntrant (a : Accounts) (p : SocialProfile) : Action (User × UserChanges) := do
  let email ← Action.orReject .socialLoginNotAcceptable (SocialProfile.normalEmail p.email)
  let u ← a.findOrCreate p email
  profileUser p u

/-- The sign-in with a profile, divided where it is known who comes. -/
theorem signInWithProfile_eq (a : Accounts) (p : SocialProfile) :
    a.signInWithProfile p = a.profileEntrant p >>= fun e => a.complete e.1 e.2 := by
  simp only [signInWithProfile, profileEntrant, profileUser, profileEmail_eq, bind_assoc]
  refine bind_congr fun email => bind_congr fun u => bind_congr fun _ => bind_congr fun _ => ?_
  cases inReview? u with
  | some e => rfl
  | none => rw [pure_bind]

/-- Who comes with a code of another service. -/
def providerEntrant (a : Accounts) (provider : IdentityProvider) (code : String) :
    Action (User × UserChanges) := do
  let p ← provider.exchangeCode code
  Action.log (.profileReceived provider.name)
  a.profileEntrant p

/-- Who comes with a new password and a limited token. -/
def resetEntrant (a : Accounts) (u : User) (new : String) : Action (User × UserChanges) := do
  let hash ← a.hashPassword new
  return (u, passwordChanges hash)

theorem keeps_passwordEntrant {F : Frame} (name : Username) (password : String)
    (roles : Option (List Role)) : F.Keeps (passwordEntrant name password roles) := by
  refine (keeps_query _).bind fun o => (keeps_orReject _ o).bind fun u => Keeps.ite ?_ ?_
  · exact (keeps_log _).bind fun _ => keeps_reject _
  · refine (keeps_requireEnabled u).bind fun _ => ?_
    cases unverified? name u with
    | some e => exact keeps_reject e
    | none => exact keeps_pure _

theorem keeps_profileUser {F : Frame} (p : SocialProfile) (u : User) :
    F.Keeps (profileUser p u) := by
  refine (keeps_requireEnabled u).bind fun _ => (keeps_requireUnblocked u).bind fun _ => ?_
  cases inReview? u with
  | some e => exact keeps_reject e
  | none => exact keeps_pure _

end Accounts

namespace Operation

/-- How an operation that is a full sign-in finds out who comes, and what else changes with the
sign-in. -/
def entrant? (a : Accounts) : Operation → Option (Action (User × UserChanges))
  | signInWithPassword name password roles => some (Accounts.passwordEntrant name password roles)
  | signInWithCode name code => some (a.codeEntrant name code)
  | signInWithProfile p => some (a.profileEntrant p)
  | signInWithProvider provider code => some (a.providerEntrant provider.toIdentityProvider code)
  | changePassword u _ new true => some (a.resetEntrant u new)
  | verifyCode name code => some (a.knownEntrant name code)
  | _ => none

variable {a : Accounts} {op : Operation} {x : Action (User × UserChanges)}

theorem perform_of_entrant (h : op.entrant? a = some x) :
    op.perform a = Result.pair <$> (x >>= fun e => a.complete e.1 e.2) := by
  cases op
  case signInWithPassword name password roles =>
    cases h
    rw [perform, Accounts.signInWithPassword_eq]
    refine congrArg (Result.pair <$> ·) ?_
    simp only [Accounts.passwordEntrant, bind_assoc]
    refine bind_congr fun o => bind_congr fun u => ?_
    split
    · rw [bind_assoc, Action.reject_bind]
    · rw [bind_assoc]
      refine bind_congr fun _ => ?_
      cases Accounts.unverified? name u with
      | some e => rfl
      | none => rw [pure_bind]
  case signInWithCode name code =>
    cases h
    simp only [perform, Accounts.signInWithCode, Accounts.codeEntrant, bind_assoc, pure_bind]
  case signInWithProfile p =>
    cases h
    rw [perform, Accounts.signInWithProfile_eq]
  case signInWithProvider provider code =>
    cases h
    simp only [perform, Accounts.signInWithProvider, Accounts.providerEntrant, bind_assoc,
      Accounts.signInWithProfile_eq]
  case changePassword u old new limited =>
    cases limited with
    | false => cases h
    | true =>
      cases h
      simp only [perform, Accounts.changePassword_limited, Accounts.resetEntrant, bind_assoc,
        pure_bind, map_bind, Functor.map_map]
      rfl
  case verifyCode name code =>
    cases h
    simp only [perform, Accounts.verifyCode, Accounts.knownEntrant, bind_assoc, pure_bind]
  all_goals cases h

/-- The store after a full sign-in is what the update of the user has left; the welcome may still
fail. -/
theorem store_of_entrant {m : Moment} {w v : World} {u u' : User} {extra : UserChanges} {s : Store}
    (h : op.entrant? a = some x) (hx : x.perform m w = (.ok (u, extra), v))
    (hu : v.store.updateUser u.id (Accounts.signInChanges u extra m) = (.ok u', s)) :
    ((op.perform a).perform m w).2.store = s := by
  rw [perform_of_entrant h, Action.perform_map, Action.perform_bind_ok hx,
    Accounts.perform_complete_of_ok hu]
  exact Accounts.keeps_welcome allowsTokens_store u' m { v with store := s }

/-- Finding out who comes keeps every frame that its changes keep. -/
theorem keeps_entrant {F : Frame} (h : op.entrant? a = some x) (hw : F.AllowsWrites)
    (hc : ∀ name, op.codeName? = some name → F.AllowsCode name) : F.Keeps x := by
  have hprofile (p : SocialProfile) : F.Keeps (a.profileEntrant p) :=
    (keeps_orReject _ _).bind fun email => (Accounts.keeps_findOrCreate hw p email).bind fun u =>
      Accounts.keeps_profileUser p u
  cases op
  case signInWithPassword name password roles =>
    cases h
    exact Accounts.keeps_passwordEntrant name password roles
  case signInWithCode name code =>
    cases h
    exact (Otp.keeps_verify (hc name rfl) _ _).bind fun _ =>
      (Accounts.keeps_findOrRegister hw name).bind fun _ => keeps_pure _
  case signInWithProfile p =>
    cases h
    exact hprofile p
  case signInWithProvider provider code =>
    cases h
    exact (provider.keeps_exchangeCode code).of_same.bind fun p => (keeps_log _).bind fun _ =>
      hprofile p
  case changePassword u old new limited =>
    cases limited with
    | false => cases h
    | true =>
      cases h
      exact (Accounts.keeps_hashPassword new).bind fun _ => keeps_pure _
  case verifyCode name code =>
    cases h
    exact (Accounts.keeps_needUser name).bind fun _ => (Otp.keeps_verify (hc name rfl) _ _).bind
      fun _ => keeps_pure _
  all_goals cases h

end Operation

/-! ### What happens to the store until it is known who comes -/

/-- The store stays as it is, unless a new user is created; then that user is the answer. -/
def OnlyCreates {α : Type} (who : α → User) (_ : Moment) (u : World) (r : Answer α) (w : World) :
    Prop :=
  w.store = u.store ∨
    ∃ n b, n.userStatus = .justJoined ∧ r = .ok b ∧ u.store.createUser n = (.ok (who b), w.store)

namespace OnlyCreates

variable {α : Type} {who : α → User}

theorem enters : Frame.store.Enters (OnlyCreates who) where
  before {m u v w r} h h' := by
    rw [OnlyCreates, ← (h : v.store = u.store)]
    exact h'
  error h := .inl h
  logged h := h

theorem of_keeps {x : Action α} (h : Frame.store.Keeps x) : x.Ensures (OnlyCreates who) :=
  fun m w => .inl (h m w)

theorem map {β : Type} {f : β → α} {m : Moment} {u w : World} {r : Answer β}
    (h : OnlyCreates (fun b => who (f b)) m u r w) : OnlyCreates who m u (r.map f) w := by
  rcases h with h | ⟨n, b, hn, rfl, h⟩
  · exact .inl h
  · exact .inr ⟨n, f b, hn, rfl, h⟩

end OnlyCreates

namespace Accounts

variable {a : Accounts}

theorem onlyCreates_findOrRegister (name : Username) :
    (findOrRegister name).Ensures (OnlyCreates id) := by
  unfold findOrRegister
  refine Action.Ensures.bind OnlyCreates.enters (keeps_query _) fun o => ?_
  cases o with
  | some u =>
    exact .of_keeps ((keeps_requireEnabled u).bind fun _ =>
      (keeps_requireUnblocked u).bind fun _ => keeps_pure u)
  | none =>
    intro m w
    rw [Action.perform_bind, Action.perform_change]
    rcases hx : w.store.createUser (provedCustomer name) with ⟨e | u, s⟩
    · exact .inl (Store.createUser_of_error hx)
    · exact .inr ⟨provedCustomer name, u, rfl, rfl, hx⟩

theorem onlyCreates_findOrCreate (p : SocialProfile) (email : String) :
    (a.findOrCreate p email).Ensures (OnlyCreates id) := by
  unfold findOrCreate
  refine Action.Ensures.bind OnlyCreates.enters (keeps_query _) fun o => ?_
  cases o with
  | some u => exact .of_keeps (keeps_pure u)
  | none =>
    refine Action.Ensures.bind OnlyCreates.enters keeps_read fun m => ?_
    refine Action.Ensures.bind OnlyCreates.enters (keeps_hashPassword _) fun hash => fun m w => ?_
    rw [Action.perform_change]
    rcases hx : w.store.createUser (socialCustomer p email hash) with ⟨e | u, s⟩
    · exact .inl (Store.createUser_of_error hx)
    · exact .inr ⟨_, u, rfl, rfl, hx⟩

theorem onlyCreates_codeEntrant (name : Username) (code : String) :
    (a.codeEntrant name code).Ensures (OnlyCreates Prod.fst) := by
  refine Action.Ensures.bind OnlyCreates.enters (Otp.keeps_verify (allowsCode_store name) _ _)
    fun _ => ?_
  refine Action.ensures_map.2 fun m w => OnlyCreates.map ?_
  exact onlyCreates_findOrRegister name m w

theorem onlyCreates_knownEntrant (name : Username) (code : String) :
    (a.knownEntrant name code).Ensures (OnlyCreates Prod.fst) :=
  .of_keeps ((keeps_needUser name).bind fun _ =>
    (Otp.keeps_verify (allowsCode_store name) _ _).bind fun _ => keeps_pure _)

theorem onlyCreates_profileEntrant (p : SocialProfile) :
    (a.profileEntrant p).Ensures (OnlyCreates Prod.fst) := by
  refine Action.Ensures.bind OnlyCreates.enters (keeps_orReject _ _) fun email => fun m w => ?_
  have h := a.onlyCreates_findOrCreate p email m w
  rw [Action.perform_bind]
  rcases hx : (a.findOrCreate p email).perform m w with ⟨e | u, v⟩ <;> rw [hx] at h
  · exact .inl (h.resolve_right fun ⟨_, _, _, hb, _⟩ => nomatch hb)
  · have hkeep : Frame.store.Keeps (profileUser p u) := keeps_profileUser p u
    rcases h with hs | ⟨n, b, hn, hb, hcreate⟩
    · exact .inl ((hkeep m v).trans hs)
    · -- nothing keeps a new user from signing in
      obtain rfl := Except.ok.inj hb
      obtain ⟨id, rfl⟩ := (Store.createUser_of_ok hcreate).1
      have hreview : inReview? (n.toUser id) = none := by rw [inReview?, NewUser.toUser, hn]
      have hok : (profileUser p (n.toUser id)).perform m v =
          (.ok (n.toUser id, { emailVerified := if p.emailVerified then some true else none }),
            v) := by
        rw [profileUser, hreview]
        rfl
      show OnlyCreates Prod.fst m w ((profileUser p (n.toUser id)).perform m v).1
        ((profileUser p (n.toUser id)).perform m v).2
      rw [hok]
      exact .inr ⟨n, _, hn, rfl, hcreate⟩

end Accounts

theorem Operation.onlyCreates_entrant {a : Accounts} {op : Operation}
    {x : Action (User × UserChanges)} (h : op.entrant? a = some x) :
    x.Ensures (OnlyCreates Prod.fst) := by
  cases op
  case signInWithPassword name password roles =>
    cases h
    exact .of_keeps (Accounts.keeps_passwordEntrant name password roles)
  case signInWithCode name code =>
    cases h
    exact Accounts.onlyCreates_codeEntrant name code
  case signInWithProfile p =>
    cases h
    exact Accounts.onlyCreates_profileEntrant p
  case signInWithProvider provider code =>
    cases h
    exact Action.Ensures.bind OnlyCreates.enters (provider.keeps_exchangeCode code).of_same
      fun p => Action.Ensures.bind OnlyCreates.enters (keeps_log _)
        fun _ => Accounts.onlyCreates_profileEntrant p
  case changePassword u old new limited =>
    cases limited with
    | false => cases h
    | true =>
      cases h
      exact .of_keeps ((Accounts.keeps_hashPassword new).bind fun _ => keeps_pure _)
  case verifyCode name code =>
    cases h
    exact Accounts.onlyCreates_knownEntrant name code
  all_goals cases h

/-! ### Who is signed in -/

namespace Operation

/-- The number of the user whom an operation signs in. It is settled by the update of the user; the
welcome that follows may still fail. -/
def admits? (a : Accounts) (op : Operation) (m : Moment) (w : World) : Option Int :=
  match op.entrant? a with
  | none => none
  | some x =>
    match x.perform m w with
    | (.error _, _) => none
    | (.ok (u, extra), v) =>
      match v.store.updateUser u.id (Accounts.signInChanges u extra m) with
      | (.error _, _) => none
      | (.ok _, _) => some u.id

variable {a : Accounts} {op : Operation} {x : Action (User × UserChanges)}

theorem entrant?_of_not_writesUsers (h : op.writesUsers = false) : op.entrant? a = none := by
  cases op <;>
    first
    | rfl
    | cases h

theorem admits?_of_entrant?_none (h : op.entrant? a = none) (m : Moment) (w : World) :
    op.admits? a m w = none := by
  rw [admits?, h]

/-- A full sign-in either fails before anybody is signed in, or all that is left is the welcome. -/
theorem admits_cases (h : op.entrant? a = some x) (m : Moment) (w : World) :
    (op.admits? a m w = none ∧ (∃ e, ((op.perform a).perform m w).1 = .error e) ∧
        w.store.Spoils ((op.perform a).perform m w).2.store) ∨
      ∃ u extra v u' s, x.perform m w = (.ok (u, extra), v) ∧
        (v.store = w.store ∨ ∃ n, w.store.createUser n = (.ok u, v.store)) ∧
        v.store.updateUser u.id (Accounts.signInChanges u extra m) = (.ok u', s) ∧
        op.admits? a m w = some u.id ∧
        (op.perform a).perform m w =
          (Result.pair <$> a.welcome u').perform m { v with store := s } := by
  have hs := onlyCreates_entrant h m w
  simp only [admits?, h, perform_of_entrant h, Action.perform_map, Action.perform_bind]
  rcases hx : x.perform m w with ⟨e | ⟨u, extra⟩, v⟩ <;> rw [hx] at hs <;> dsimp only
  · exact .inl ⟨rfl, ⟨e, rfl⟩, .inl (hs.resolve_right fun ⟨_, _, _, hb, _⟩ => nomatch hb)⟩
  · have hv : v.store = w.store ∨ ∃ n, w.store.createUser n = (.ok u, v.store) := by
      refine hs.imp_right fun ⟨n, b, _, hb, hn⟩ => ⟨n, ?_⟩
      rw [hn, ← Except.ok.inj hb]
    rcases hu : v.store.updateUser u.id (Accounts.signInChanges u extra m) with ⟨e | u', s⟩ <;>
      dsimp only
    · refine .inl ⟨rfl, ?_⟩
      simp only [Accounts.perform_complete_of_error hu]
      refine ⟨⟨e, rfl⟩, ?_⟩
      rcases hv with hv | ⟨n, hn⟩
      · exact hv ▸ Store.spoils_of_updateUser hu
      · -- the new user is found, so the update has failed only because of what it has written
        obtain ⟨-, hfound, hothers, hw⟩ := Store.createUser_of_ok hn
        rcases Store.updateUser_of_error hu with ⟨-, hnone⟩ | ⟨f, hf⟩
        · exact absurd hfound (hnone hw u)
        · refine .inr ⟨u.id, f, hf, fun k hk => Eq.trans ?_ (hothers k hk)⟩
          rw [← Store.findById_updateUser_of_ne (s := v.store)
            (c := Accounts.signInChanges u extra m) hk, hu]
    · refine .inr ⟨u, extra, v, u', s, rfl, hv, hu, rfl, ?_⟩
      simp only [Accounts.perform_complete_of_ok hu]

end Operation

/-! ### Updates on their own -/

/-- An action is an update of a user that says whether the user has to sign in again. If it fails,
it has changed nothing that can be read. -/
def Action.Updates {α : Type} (x : Action α) (id : Int) (mark : Bool) : Prop := ∀ m w,
  ((∃ e, (x.perform m w).1 = .error e) ∧ w.store.Spoils (x.perform m w).2.store) ∨
    ∃ r c u, (x.perform m w).1 = .ok r ∧ c.isForceLogin = some mark ∧
      w.store.updateUser id c = (.ok u, (x.perform m w).2.store)

namespace Action.Updates

variable {α β : Type} {id : Int} {mark : Bool}

theorem map {x : Action α} (h : x.Updates id mark) (f : α → β) : (f <$> x).Updates id mark := by
  intro m w
  rw [perform_map]
  refine (h m w).imp (fun ⟨⟨e, he⟩, hs⟩ => ⟨⟨e, ?_⟩, hs⟩) fun ⟨r, c, u, hr, hu⟩ =>
    ⟨f r, c, u, ?_, hu⟩
  · rw [he]
    rfl
  · rw [hr]
    rfl

theorem spoils_of_error {x : Action α} (h : x.Updates id mark) {m : Moment} {w : World} {e : Error}
    (he : (x.perform m w).1 = .error e) : w.store.Spoils (x.perform m w).2.store := by
  rcases h m w with ⟨-, hs⟩ | ⟨r, _, _, hr, -⟩
  · exact hs
  · cases he.symm.trans hr

/-- An update, after which only something is logged. -/
theorem change {c : UserChanges} (hc : c.isForceLogin = some mark) (e : User → Event)
    (f : User → α) : (do
      let u ← Action.change (·.updateUser id c)
      Action.log (e u)
      return f u).Updates id mark := by
  intro m w
  rw [perform_bind, perform_change]
  rcases hu : w.store.updateUser id c with ⟨e | u, s⟩
  · exact .inl ⟨⟨e, rfl⟩, Store.spoils_of_updateUser hu⟩
  · exact .inr ⟨f u, c, u, rfl, hc, hu⟩

/-- What comes before an update and leaves the store alone. -/
theorem bind {y : Action β} {f : β → Action α} (hy : Frame.store.Keeps y)
    (hf : ∀ b, (f b).Updates id mark) : (y >>= f).Updates id mark := by
  intro m w
  have hs := hy m w
  rw [perform_bind]
  rcases hx : y.perform m w with ⟨e | b, v⟩ <;> rw [hx] at hs
  · exact .inl ⟨⟨e, rfl⟩, .inl hs⟩
  · rw [← (show v.store = w.store from hs)]
    exact hf b m v

end Action.Updates

namespace Accounts

variable {a : Accounts}

theorem updates_signOut (actor : User) (target : Option Int) :
    (signOut actor target).Updates (target.getD actor.id) true :=
  .bind (keeps_require _ _) fun _ => .change rfl _ _

theorem updates_changePassword (u : User) (old : Option String) (new : String) :
    (a.changePassword u old new false).Updates u.id false := by
  rw [changePassword_full]
  exact .bind (keeps_requireOldPassword u old) fun _ => .bind (keeps_hashPassword new) fun _ =>
    .change rfl (fun _ => .passwordChanged u.id) fun _ => none

end Accounts

end AuthCore
