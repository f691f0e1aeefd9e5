import AuthCore.Proofs.Run

/-!
# What operations leave alone

The parts of the operations keep every frame that the changes they make keep. Most parts make none;
the others create or update a user, change the groups, or use the cache at the key of a token or of
a one-time code. `Operation.keeps_perform` says it of whole operations.
-/

namespace AuthCore

open AuthCore.Frame

variable {F : Frame}

/-- A frame allows what operations do to the store. -/
structure Frame.AllowsWrites (F : Frame) : Prop where
  createUser : ∀ n, F.Keeps (Action.change (·.createUser n))
  updateUser : ∀ id c, F.Keeps (Action.change (·.updateUser id c))
  createGroup : ∀ g, F.Keeps (Action.change (·.createGroup g))
  updateGroup : ∀ name u, F.Keeps (Action.change (·.updateGroup name u))
  deleteGroups : ∀ names, F.Keeps (Action.change (·.deleteGroups names))

/-- A frame allows what operations do to the groups of the store. -/
structure Frame.AllowsGroups (F : Frame) : Prop where
  createGroup : ∀ g, F.Keeps (Action.change (·.createGroup g))
  updateGroup : ∀ name u, F.Keeps (Action.change (·.updateGroup name u))
  deleteGroups : ∀ names, F.Keeps (Action.change (·.deleteGroups names))

theorem Frame.AllowsWrites.groups (h : F.AllowsWrites) : F.AllowsGroups :=
  ⟨h.createGroup, h.updateGroup, h.deleteGroups⟩

/-- A frame allows the use of the cache at the keys of tokens. -/
structure Frame.AllowsTokens (F : Frame) : Prop where
  set : ∀ token text ttl, F.Keeps (Action.cacheSet (Tokens.key token) text ttl)
  get : ∀ token, F.Keeps (Action.cached fun now => Cache.get Json.string? (Tokens.key token) now)
  take : ∀ token text,
    F.Keeps (Action.cached fun now => Cache.compareAndDelete (Tokens.key token) text now)

/-- A frame allows the use of the cache at the key of the code of a username. -/
structure Frame.AllowsCode (F : Frame) (u : Username) : Prop where
  create : ∀ fields ttl, F.Keeps (Action.cacheCreate (Otp.key u) fields ttl)
  check : ∀ guess limit, F.Keeps (Action.cached fun now =>
    Cache.check (Otp.key u) Otp.codeField guess Otp.retryField limit now)

/-! ### Parts that change nothing -/

namespace Permissions

theorem keeps_effective (u : User) : F.Keeps (effective u) := by
  unfold effective
  refine (keeps_pure _).ite ?_
  refine (keeps_query _).bind fun groups => ?_
  exact (keeps_forM (fun _ => keeps_log _) _).bind fun _ => keeps_pure _

theorem keeps_check (u : User) (scope : Option Scope) : F.Keeps (check u scope) := by
  unfold check
  cases scope with
  | none => exact keeps_pure ()
  | some s =>
    refine (keeps_effective u).bind fun map => (keeps_pure ()).ite ?_
    exact (keeps_log _).bind fun _ => keeps_reject _

theorem keeps_validate (ps : List Permission) : F.Keeps (validate ps) := by
  refine keeps_forM (fun p => ?_) ps
  unfold validateRules
  refine (keeps_query _).bind fun e => (keeps_orReject _ e).bind fun e => ?_
  exact keeps_require _ _

end Permissions

namespace Tokens

variable {t : Tokens}

theorem keeps_verify (token : String) : F.Keeps (t.verify token) :=
  keeps_read.bind fun _ => keeps_ofAnswer _

theorem keeps_issueLimited (user : Int) (role : Role) : F.Keeps (t.issueLimited user role) :=
  keeps_read.bind fun _ => keeps_pure _

end Tokens

namespace Accounts

variable {a : Accounts}

theorem keeps_hashPassword (password : String) : F.Keeps (a.hashPassword password) :=
  keeps_read.bind fun _ => keeps_ofAnswer _

theorem keeps_needUser (name : Username) : F.Keeps (needUser name) :=
  (keeps_query _).bind fun u => keeps_orReject _ u

theorem keeps_needUserById (id : Int) : F.Keeps (needUserById id) :=
  (keeps_query _).bind fun u => keeps_orReject _ u

theorem keeps_requireEnabled (u : User) : F.Keeps (requireEnabled u) := keeps_require _ _

theorem keeps_requireUnblocked (u : User) : F.Keeps (requireUnblocked u) := keeps_require _ _

theorem keeps_requireOldPassword (u : User) (old : Option String) :
    F.Keeps (requireOldPassword u old) :=
  (keeps_orReject _ old).bind fun _ => keeps_require _ _

theorem keeps_needActiveUser (id : Int) : F.Keeps (needActiveUser id) := by
  unfold needActiveUser
  refine (keeps_needUserById id).bind fun u => ?_
  cases inactive? u with
  | some e => exact keeps_reject e
  | none => exact keeps_pure u

theorem keeps_authenticate (token : String) : F.Keeps (a.authenticate token) :=
  (Tokens.keeps_verify token).bind fun _ => (keeps_require _ _).bind fun _ =>
    keeps_needActiveUser _

theorem keeps_authenticateLimited (token : String) : F.Keeps (a.authenticateLimited token) := by
  unfold authenticateLimited
  refine (Tokens.keeps_verify token).bind fun c => Keeps.ite ?_ ?_
  · exact (keeps_needActiveUser _).bind fun _ => keeps_pure _
  · refine (keeps_needUserById _).bind fun u => (keeps_requireEnabled u).bind fun _ => ?_
    exact (keeps_requireUnblocked u).bind fun _ => keeps_pure _

theorem keeps_authorizeStaff (u : User) (scope : Option Scope) :
    F.Keeps (authorizeStaff u scope) :=
  (keeps_require _ _).bind fun _ => Permissions.keeps_check u scope

end Accounts

/-! ### Parts that make a change -/

theorem Groups.keeps_create (h : F.AllowsGroups) (g : Group) : F.Keeps (create g) :=
  (Permissions.keeps_validate _).bind fun _ => (h.createGroup g).bind fun _ =>
    (keeps_log _).bind fun _ => keeps_pure _

theorem Groups.keeps_update (h : F.AllowsGroups) (name : String) (u : GroupUpdate) :
    F.Keeps (update name u) := by
  unfold update
  cases u.permissions with
  | some ps =>
    refine (Permissions.keeps_validate ps).bind fun _ => (h.updateGroup name u).bind fun _ => ?_
    exact (keeps_log _).bind fun _ => keeps_pure _
  | none => exact (h.updateGroup name u).bind fun _ => (keeps_log _).bind fun _ => keeps_pure _

theorem Groups.keeps_delete (h : F.AllowsGroups) (names : List String) :
    F.Keeps (delete names) := by
  unfold delete
  refine (keeps_query _).bind fun counts => (h.deleteGroups _).bind fun deleted => ?_
  exact (keeps_log _).bind fun _ => (keeps_pure _).ite (keeps_reject _)

namespace Accounts

variable {a : Accounts}

theorem keeps_findOrRegister (h : F.AllowsWrites) (name : Username) :
    F.Keeps (findOrRegister name) := by
  unfold findOrRegister
  refine (keeps_query _).bind fun u => ?_
  cases u with
  | some u =>
    refine (keeps_requireEnabled u).bind fun _ => (keeps_requireUnblocked u).bind fun _ => ?_
    exact keeps_pure u
  | none => exact (h.createUser _).bind fun u => (keeps_log _).bind fun _ => keeps_pure u

theorem keeps_findOrCreate (h : F.AllowsWrites) (p : SocialProfile) (email : String) :
    F.Keeps (a.findOrCreate p email) := by
  unfold findOrCreate
  refine (keeps_query _).bind fun u => ?_
  cases u with
  | some u => exact keeps_pure u
  | none => exact keeps_read.bind fun _ => (keeps_hashPassword _).bind fun _ => h.createUser _

theorem keeps_signOut (h : F.AllowsWrites) (actor : User) (target : Option Int) :
    F.Keeps (signOut actor target) :=
  (keeps_require _ _).bind fun _ => (h.updateUser _ _).bind fun _ => (keeps_log _).bind fun _ =>
    keeps_pure _

end Accounts

namespace Otp

theorem keeps_deliver (recipient : String) (message : Message) :
    F.Keeps (deliver recipient message) :=
  keeps_get.bind fun w =>
    (Frame.keeps_deliver w.notifier recipient message).tryCatch fun _ => keeps_log _

variable {u : Username}

/-- What a request does to the cache is to put a fresh code there. -/
theorem keeps_request_of_create {c : OtpConfig} (h : ∀ m, F.Keeps (Action.cacheCreate (key u)
      [(codeField, code c m), (retryField, "0")] (seconds (window c)))) (purpose : OtpPurpose)
    (greeted : Option String) : F.Keeps (request c u purpose greeted) := by
  unfold request
  refine keeps_read.bind fun m => (h m).bind fun created => ?_
  refine (keeps_require _ _).bind fun _ => ?_
  exact (keeps_log _).bind fun _ => (keeps_pure ()).ite (keeps_deliver _ _)

theorem keeps_request (h : F.AllowsCode u) (c : OtpConfig) (purpose : OtpPurpose)
    (greeted : Option String) : F.Keeps (request c u purpose greeted) :=
  keeps_request_of_create (fun _ => h.create _ _) purpose greeted

/-- What checking a guess does to the cache is to compare it. -/
theorem keeps_verify_of_check {c : OtpConfig} {guess : String}
    (h : F.Keeps (Action.cached fun now =>
      Cache.check (key u) codeField guess retryField c.maxRetries now)) :
    F.Keeps (verify c u guess) := by
  unfold verify
  refine h.bind fun r => ?_
  cases r with
  | matched => exact keeps_log _
  | mismatch n => exact (keeps_log _).bind fun _ => keeps_reject _
  | locked => exact (keeps_log _).bind fun _ => keeps_reject _
  | missing => exact keeps_reject _

theorem keeps_verify (h : F.AllowsCode u) (c : OtpConfig) (guess : String) :
    F.Keeps (verify c u guess) :=
  keeps_verify_of_check (h.check guess c.maxRetries)

end Otp

namespace Tokens

variable {t : Tokens}

theorem keeps_issue (h : F.AllowsTokens) (user : Int) (role : Role) (limited : Bool) :
    F.Keeps (t.issue user role limited) :=
  keeps_read.bind fun _ => (h.set _ _ _).bind fun _ => (keeps_log _).bind fun _ => keeps_pure _

/-- The last part of an exchange: the entry gives way to that of a new pair. -/
def renew (t : Tokens) (token entry : String) (user : User) : Action TokenPair := do
  let taken ← Action.cached fun now =>
    Cache.compareAndDelete (key token) (entryText entry) now
  Action.require taken .refreshTokenExpired
  let pair ← t.issue user.id user.role false
  Action.log (.tokenRefreshed user.id)
  return pair

/-- The second half of an exchange: the entry of the token has turned out to fit. -/
def exchange (t : Tokens) (token entry : String) (id : Int) : Action TokenPair := do
  let user ← Action.orReject .userNotFound (← Action.query (·.findById id))
  Action.require (!user.isForceLogin) .userForceLogin
  t.renew token entry user

theorem refresh_eq (token : String) :
    t.refresh token = (do
      let entry ← Action.cached fun now => Cache.get Json.string? (key token) now
      let entry ← Action.orReject .refreshTokenExpired entry
      let id ← Action.ofAnswer ((RefreshToken.verify t.signer token).mapError .auth)
      if entryUser? entry ≠ some id then
        Action.log (.refreshMismatch id)
        Action.reject .invalidTokenProvided
      else t.exchange token entry id) := rfl

/-- An exchange reads the entry and looks for the user; what it achieves is left to its last
part. -/
theorem ensures_refresh {Q : Moment → World → Answer TokenPair → World → Prop} (hQ : F.Enters Q)
    {token : String}
    (hg : F.Keeps (Action.cached fun now => Cache.get Json.string? (key token) now))
    (hr : ∀ entry user, (t.renew token entry user).Ensures Q) : (t.refresh token).Ensures Q := by
  rw [refresh_eq]
  refine Action.Ensures.bind hQ hg fun o => ?_
  refine Action.Ensures.bind hQ (keeps_orReject _ o) fun entry => ?_
  refine Action.Ensures.bind hQ (keeps_ofAnswer _) fun id => ?_
  split
  · exact Action.Ensures.bind hQ (keeps_log _) fun _ => Action.ensures_reject hQ _
  · refine Action.Ensures.bind hQ (keeps_query _) fun o => ?_
    refine Action.Ensures.bind hQ (keeps_orReject _ o) fun user => ?_
    exact Action.Ensures.bind hQ (keeps_require _ _) fun _ => hr entry user

theorem keeps_refresh (h : F.AllowsTokens) (token : String) : F.Keeps (t.refresh token) := by
  refine ensures_refresh enters_allows (h.get token) fun entry user => ?_
  refine Keeps.bind (h.take token _) fun taken => (keeps_require _ _).bind fun _ => ?_
  exact (keeps_issue h _ _ _).bind fun pair => (keeps_log _).bind fun _ => keeps_pure pair

end Tokens

namespace Accounts

variable {a : Accounts}

/-! ### Full sign-ins

Each way of signing in is a check, or a search for the user, before `Accounts.complete`. -/

section SignIn

variable {Q : Moment → World → Answer TokenPair → World → Prop}

theorem ensures_complete (hQ : F.Enters Q) (h : F.AllowsWrites)
    (hi : ∀ user role, (a.tokens.issue user role false).Ensures Q) (u : User)
    (extra : UserChanges) : (a.complete u extra).Ensures Q :=
  Action.Ensures.bind hQ keeps_read fun _ => Action.Ensures.bind hQ (h.updateUser _ _) fun u =>
    (hi u.id u.role).logged hQ _

theorem signInWithPassword_eq (name : Username) (password : String) (roles : Option (List Role)) :
    a.signInWithPassword name password roles = (do
      let u ← Action.orReject .userNotFound (← Action.query (·.findByUsername name roles))
      if !passwordFits password u.hashedPassword then
        Action.log (.passwordMismatch name.value)
        Action.reject .userNotFound
      else
        requireEnabled u
        match unverified? name u with
        | some e => Action.reject e
        | none => a.complete u {}) := rfl

theorem ensures_signInWithPassword (hQ : F.Enters Q)
    (hc : ∀ u extra, (a.complete u extra).Ensures Q) (name : Username) (password : String)
    (roles : Option (List Role)) : (a.signInWithPassword name password roles).Ensures Q := by
  rw [signInWithPassword_eq]
  refine Action.Ensures.bind hQ (keeps_query _) fun u => ?_
  refine Action.Ensures.bind hQ (keeps_orReject _ u) fun u => ?_
  split
  · exact Action.Ensures.bind hQ (keeps_log _) fun _ => Action.ensures_reject hQ _
  · refine Action.Ensures.bind hQ (keeps_requireEnabled u) fun _ => ?_
    cases unverified? name u with
    | some e => exact Action.ensures_reject hQ e
    | none => exact hc u {}

theorem ensures_signInWithCode (hQ : F.Enters Q)
    (hc : ∀ u extra, (a.complete u extra).Ensures Q) (h : F.AllowsWrites) (name : Username)
    (hv : F.AllowsCode name) (code : String) : (a.signInWithCode name code).Ensures Q :=
  Action.Ensures.bind hQ (Otp.keeps_verify hv _ _) fun _ =>
    Action.Ensures.bind hQ (keeps_findOrRegister h name) fun u => hc u _

theorem ensures_signInWithProfile (hQ : F.Enters Q)
    (hc : ∀ u extra, (a.complete u extra).Ensures Q) (h : F.AllowsWrites) (p : SocialProfile) :
    (a.signInWithProfile p).Ensures Q := by
  unfold signInWithProfile
  refine Action.Ensures.bind hQ (keeps_orReject _ _) fun email => ?_
  refine Action.Ensures.bind hQ (keeps_findOrCreate h p email) fun u => ?_
  refine Action.Ensures.bind hQ (keeps_requireEnabled u) fun _ => ?_
  refine Action.Ensures.bind hQ (keeps_requireUnblocked u) fun _ => ?_
  cases inReview? u with
  | some e => exact Action.ensures_reject hQ e
  | none => exact hc u _

theorem ensures_signInWithProvider (hQ : F.Enters Q)
    (hc : ∀ u extra, (a.complete u extra).Ensures Q) (h : F.AllowsWrites) (provider : OuterProvider)
    (code : String) : (a.signInWithProvider provider.toIdentityProvider code).Ensures Q :=
  Action.Ensures.bind hQ (provider.keeps_exchangeCode code).of_same fun p =>
    Action.Ensures.bind hQ (keeps_log _) fun _ => ensures_signInWithProfile hQ hc h p

theorem ensures_verifyCode (hQ : F.Enters Q) (hc : ∀ u extra, (a.complete u extra).Ensures Q)
    (name : Username) (hv : F.AllowsCode name) (code : String) :
    (a.verifyCode name code).Ensures Q :=
  Action.Ensures.bind hQ (keeps_needUser name) fun u =>
    Action.Ensures.bind hQ (Otp.keeps_verify hv _ _) fun _ => hc u _

/-- What a new password changes. -/
def passwordChanges (hash : String) : UserChanges :=
  { hashedPassword := some hash, isForceChangePassword := some false, isForceLogin := some false }

theorem changePassword_limited (u : User) (old : Option String) (new : String) :
    a.changePassword u old new true = (do
      let hash ← a.hashPassword new
      some <$> a.complete u (passwordChanges hash)) := by
  simp only [changePassword, Bool.not_true, Bool.false_eq_true, if_false, if_true]
  rfl

theorem changePassword_full (u : User) (old : Option String) (new : String) :
    a.changePassword u old new false = (do
      requireOldPassword u old
      let hash ← a.hashPassword new
      let _ ← Action.change (·.updateUser u.id (passwordChanges hash))
      Action.log (.passwordChanged u.id)
      return none) := rfl

end SignIn

/-! ### Codes -/

theorem keeps_requestSignInCode {name : Username} (h : F.AllowsCode name) :
    F.Keeps (a.requestSignInCode name) :=
  (keeps_query _).bind fun _ => Otp.keeps_request h _ _ _

theorem keeps_requestResetCode {name : Username} (h : F.AllowsCode name) :
    F.Keeps (a.requestResetCode name) :=
  (keeps_needUser name).bind fun _ => Otp.keeps_request h _ _ _

theorem keeps_verifyResetCode {name : Username} (h : F.AllowsCode name) (code : String) :
    F.Keeps (a.verifyResetCode name code) :=
  (keeps_needUser name).bind fun _ => (Otp.keeps_verify h _ _).bind fun _ =>
    Tokens.keeps_issueLimited _ _

end Accounts

/-! ### Whole operations -/

namespace Operation

variable {a : Accounts}

/-- The username whose one-time code an operation is about. -/
def codeName? : Operation → Option Username
  | signInWithCode name _ | requestSignInCode name | requestResetCode name | verifyCode name _
  | verifyResetCode name _ | requestCode name _ _ | checkCode name _ => some name
  | _ => none

/-- Whether an operation may create or update a user. -/
def writesUsers : Operation → Bool
  | signInWithPassword .. | signInWithCode .. | signInWithProfile .. | signInWithProvider ..
  | signOut .. | changePassword .. | verifyCode .. => true
  | _ => false

/-- What an operation ensures, if it is known for issuing a pair of tokens, for exchanging a token,
and for everything that answers no pair and does no more than a frame allows. -/
theorem ensures_perform {Q : Moment → World → Answer Result → World → Prop} (hQ : F.Enters Q)
    (op : Operation) (hg : F.AllowsGroups) (hw : op.writesUsers = true → F.AllowsWrites)
    (hc : ∀ name, op.codeName? = some name → F.AllowsCode name)
    (hi : ∀ user role limited, (Result.pair <$> a.tokens.issue user role limited).Ensures Q)
    (hr : ∀ token, op = refresh token → (Result.pair <$> a.tokens.refresh token).Ensures Q)
    (ho : ∀ {m u v r}, F.Allows m u v → answeredPair? r = none → Q m u r v) :
    (op.perform a).Ensures Q := by
  have hmap {α : Type} {x : Action α} {f : α → Result} (hx : F.Keeps x)
      (hf : ∀ b, (f b).pair? = none) : (f <$> x).Ensures Q := by
    refine Action.ensures_map.2 fun m w => ho (hx m w) ?_
    cases (x.perform m w).1 with
    | error e => rfl
    | ok b => exact hf b
  have hQ' : F.Enters fun m u r w => Q m u (r.map Result.pair) w := hQ.map _
  have hcomplete (hw : F.AllowsWrites) (u : User) (extra : UserChanges) :
      (a.complete u extra).Ensures fun m u r w => Q m u (r.map Result.pair) w :=
    Accounts.ensures_complete hQ' hw (fun user role => Action.ensures_map.1 (hi user role false))
      u extra
  unfold perform
  cases op with
  | signInWithPassword name password roles =>
    exact Action.ensures_map.2
      (Accounts.ensures_signInWithPassword hQ' (hcomplete (hw rfl)) name password roles)
  | signInWithCode name code =>
    exact Action.ensures_map.2
      (Accounts.ensures_signInWithCode hQ' (hcomplete (hw rfl)) (hw rfl) name (hc name rfl) code)
  | signInWithProfile p =>
    exact Action.ensures_map.2
      (Accounts.ensures_signInWithProfile hQ' (hcomplete (hw rfl)) (hw rfl) p)
  | signInWithProvider provider code =>
    exact Action.ensures_map.2
      (Accounts.ensures_signInWithProvider hQ' (hcomplete (hw rfl)) (hw rfl) provider code)
  | signOut actor target => exact hmap (Accounts.keeps_signOut (hw rfl) actor target) fun _ => rfl
  | changePassword u old new limited =>
    refine Action.ensures_map.2 ?_
    cases limited with
    | true =>
      rw [Accounts.changePassword_limited]
      refine Action.Ensures.bind (hQ.map _) (Accounts.keeps_hashPassword new) fun hash => ?_
      have hr (r : Answer TokenPair) : (r.map some).map Result.ofPair? = r.map .pair := by
        cases r <;> rfl
      refine Action.ensures_map.2 ?_
      simpa only [hr] using hcomplete (hw rfl) u (Accounts.passwordChanges hash)
    | false =>
      rw [Accounts.changePassword_full]
      refine Action.Ensures.bind (hQ.map _) (Accounts.keeps_requireOldPassword u old) fun _ => ?_
      refine Action.Ensures.bind (hQ.map _) (Accounts.keeps_hashPassword new) fun hash => ?_
      refine Action.Ensures.bind (hQ.map _) ((hw rfl).updateUser _ _) fun _ => ?_
      exact fun m w => ho (F.outside rfl rfl) rfl
  | requestSignInCode name =>
    exact hmap (Accounts.keeps_requestSignInCode (hc name rfl)) fun _ => rfl
  | requestResetCode name => exact hmap (Accounts.keeps_requestResetCode (hc name rfl)) fun _ => rfl
  | verifyCode name code =>
    exact Action.ensures_map.2
      (Accounts.ensures_verifyCode hQ' (hcomplete (hw rfl)) name (hc name rfl) code)
  | verifyResetCode name code =>
    exact hmap (Accounts.keeps_verifyResetCode (hc name rfl) code) fun _ => rfl
  | authenticate token => exact hmap (Accounts.keeps_authenticate token) fun _ => rfl
  | authenticateLimited token => exact hmap (Accounts.keeps_authenticateLimited token) fun _ => rfl
  | effective u => exact hmap (Permissions.keeps_effective u) fun _ => rfl
  | authorize u scope => exact hmap (Permissions.keeps_check u scope) fun _ => rfl
  | authorizeStaff u scope => exact hmap (Accounts.keeps_authorizeStaff u scope) fun _ => rfl
  | issue user role limited => exact hi user role limited
  | issueLimited user role => exact hmap (Tokens.keeps_issueLimited user role) fun _ => rfl
  | verifyToken token => exact hmap (Tokens.keeps_verify token) fun _ => rfl
  | refresh token => exact hr token rfl
  | requestCode name purpose greeted =>
    exact hmap (Otp.keeps_request (hc name rfl) _ purpose greeted) fun _ => rfl
  | checkCode name code => exact hmap (Otp.keeps_verify (hc name rfl) _ code) fun _ => rfl
  | createGroup g => exact hmap (Groups.keeps_create hg g) fun _ => rfl
  | updateGroup name u => exact hmap (Groups.keeps_update hg name u) fun _ => rfl
  | deleteGroups names => exact hmap (Groups.keeps_delete hg names) fun _ => rfl

/-- An operation keeps every frame that its changes keep. -/
theorem keeps_perform (op : Operation) (hw : F.AllowsWrites) (ht : F.AllowsTokens)
    (hc : ∀ name, op.codeName? = some name → F.AllowsCode name) : F.Keeps (op.perform a) :=
  ensures_perform Frame.enters_allows op hw.groups (fun _ => hw) hc
    (fun user role limited => (Tokens.keeps_issue ht user role limited).map _)
    (fun token _ => (Tokens.keeps_refresh ht token).map _) fun h _ => h

/-- An operation that writes no user keeps every frame that its other changes keep. -/
theorem keeps_perform_of_not_writesUsers {op : Operation} (h : op.writesUsers = false)
    (hg : F.AllowsGroups) (ht : F.AllowsTokens)
    (hc : ∀ name, op.codeName? = some name → F.AllowsCode name) : F.Keeps (op.perform a) :=
  ensures_perform Frame.enters_allows op hg (fun hw => absurd (h.symm.trans hw) nofun) hc
    (fun user role limited => (Tokens.keeps_issue ht user role limited).map _)
    (fun token _ => (Tokens.keeps_refresh ht token).map _) fun h _ => h

end Operation

/-! ### What holds of the store -/

/-- The store stays as it is. -/
def Frame.store : Frame where
  Allows _ w w' := w'.store = w.store
  outside _ hs := hs
  trans h h' := h'.trans h

/-- What holds of the store before holds of it afterwards. -/
def Frame.kept (P : Store → Prop) : Frame where
  Allows _ w w' := P w.store → P w'.store
  outside _ hs h := hs.symm ▸ h
  trans h h' hp := h' (h hp)

namespace Frame

theorem allowsTokens_store : store.AllowsTokens :=
  ⟨fun _ _ _ _ _ => rfl, fun _ _ _ => rfl, fun _ _ _ _ => rfl⟩

theorem allowsCode_store (u : Username) : store.AllowsCode u :=
  ⟨fun _ _ _ _ => rfl, fun _ _ _ _ => rfl⟩

variable {P : Store → Prop}

theorem allowsTokens_kept : (kept P).AllowsTokens :=
  ⟨fun _ _ _ _ _ => id, fun _ _ _ => id, fun _ _ _ _ => id⟩

theorem allowsCode_kept (u : Username) : (kept P).AllowsCode u :=
  ⟨fun _ _ _ _ => id, fun _ _ _ _ => id⟩

end Frame

/-- What every change of the store keeps holds after every run. -/
theorem Accounts.kept_after {a : Accounts} {P : Store → Prop} (hP : (kept P).AllowsWrites)
    {w : World} (hw : P w.store) (steps : List Step) : P (a.after w steps).store := by
  induction steps generalizing w with
  | nil => exact hw
  | cons s steps ih =>
    have hs : (kept P).Keeps (s.operation.perform a) :=
      s.operation.keeps_perform hP allowsTokens_kept fun name _ => allowsCode_kept name
    exact ih (hs s.moment w hw)

end AuthCore
