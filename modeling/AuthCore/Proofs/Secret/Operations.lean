import AuthCore.Proofs.Account.Frame
import AuthCore.Proofs.Secret.Actions

/-!
# Operations that differ in secrets only

Where the parts of the operations meet a secret, they pass it on, hash it, put it into a message, or
compare it. Only a comparison can make a difference, so two operations that get other passwords and
one-time codes go the same way if what they compare is right in both or in none
(`Operation.verdict`). A message with another code has the same size.
-/

namespace AuthCore

open AuthCore.Action

variable {m m' : Moment} {w w' : World}

/-! ### Permissions and groups -/

namespace Permissions

theorem akin_effective (u : User) : (effective u).Akin Eq m m' (effective u) := by
  refine Akin.ite (akin_pure rfl) ?_
  refine (akin_query_same fun s => s.findGroups_veil u.groups).bind_same fun groups => ?_
  exact (akin_forM (fun _ => akin_log _) _).bind_same fun _ => akin_pure rfl

theorem akin_check (u : User) (scope : Option Scope) :
    (check u scope).Akin Eq m m' (check u scope) := by
  unfold check
  cases scope with
  | none => exact akin_pure rfl
  | some s =>
    refine (akin_effective u).bind_same fun map => Akin.ite (akin_pure rfl) ?_
    exact (akin_log _).bind_same fun _ => akin_reject _

theorem akin_validate (ps : List Permission) : (validate ps).Akin Eq m m' (validate ps) := by
  refine akin_forM (fun p => ?_) ps
  unfold validateRules
  refine (akin_query_same fun s => s.findEntity_veil p.entity).bind_same fun o => ?_
  exact (akin_orReject_same o _).bind_same fun e => akin_require rfl _

end Permissions

namespace Groups

theorem akin_create (g : Group) : (create g).Akin Eq m m' (create g) :=
  (Permissions.akin_validate _).bind_same fun _ =>
    (akin_change_same fun s => s.createGroup_veil g).bind_same fun _ =>
      (akin_log _).bind_same fun _ => akin_pure rfl

theorem akin_update (name : String) (u : GroupUpdate) :
    (update name u).Akin Eq m m' (update name u) := by
  unfold update
  cases u.permissions with
  | some ps =>
    exact (Permissions.akin_validate ps).bind_same fun _ =>
      (akin_change_same fun s => s.updateGroup_veil name u).bind_same fun _ =>
        (akin_log _).bind_same fun _ => akin_pure rfl
  | none =>
    exact (akin_change_same fun s => s.updateGroup_veil name u).bind_same fun _ =>
      (akin_log _).bind_same fun _ => akin_pure rfl

theorem akin_delete (names : List String) : (delete names).Akin Eq m m' (delete names) :=
  (akin_query_same fun s => s.countUsers_veil names).bind_same fun _ =>
    (akin_change_same fun s => s.deleteGroups_veil _).bind_same fun _ =>
      (akin_log _).bind_same fun _ => Akin.ite (akin_pure rfl) (akin_reject _)

end Groups

/-! ### Tokens -/

namespace Tokens

variable {t : Tokens}

theorem alike_issue (hm : m.Akin m') (user : Int) (role : Role) (limited : Bool) :
    (t.issue user role limited).Alike m m' (t.issue user role limited) := by
  unfold issue
  refine akin_read_bind ?_
  rw [hm.nonce]
  refine (akin_cacheSet hm _ _ _).bind_same fun _ => ?_
  exact (akin_log _).bind_same fun _ => akin_pure trivial

theorem alike_issueLimited (user : Int) (role : Role) :
    (t.issueLimited user role).Alike m m' (t.issueLimited user role) :=
  akin_read_bind (akin_pure trivial)

theorem akin_verify (hm : m.Akin m') (token : String) :
    (t.verify token).Akin Eq m m' (t.verify token) := by
  refine akin_read_bind (akin_ofAnswer (.of_eq ?_))
  rw [hm.second]

theorem alike_refresh (hm : m.Akin m') (token : String) :
    (t.refresh token).Alike m m' (t.refresh token) := by
  rw [refresh_eq]
  refine (akin_get hm _ _).bind_same fun o => (akin_orReject_same o _).bind_same fun entry => ?_
  refine (akin_ofAnswer (.refl _)).bind_same fun id => Akin.ite ?_ ?_
  · exact (akin_log _).bind_same fun _ => akin_reject _
  · refine (akin_find fun s => s.findById_veil id).bind fun o o' ho => ?_
    refine (akin_orReject ho _).bind fun user user' huser => ?_
    obtain ⟨hash, rfl⟩ := huser.exists_hash
    refine (akin_require rfl _).bind_same fun _ => ?_
    refine (akin_compareAndDelete hm _ _).bind_same fun taken => ?_
    refine (akin_require rfl _).bind_same fun _ => (alike_issue hm _ _ _).bind fun _ _ _ => ?_
    exact (akin_log _).bind_same fun _ => akin_pure trivial

end Tokens

/-! ### One-time codes -/

/-- Two messages to one recipient look the same in the log. -/
structure Message.Akin (a b : Message) : Prop where
  channel : a.channel = b.channel
  logged : ∀ recipient, a.logged recipient = b.logged recipient

/-- A message with another code of the same size looks the same in the log. -/
theorem Otp.message_akin (c : OtpConfig) (u : Username) {code code' : String}
    (h : code.utf8ByteSize = code'.utf8ByteSize) (purpose : OtpPurpose) (name : Option String) :
    (message c u code purpose name).Akin (message c u code' purpose name) := by
  cases u with
  | phone value =>
    refine ⟨rfl, fun recipient => congrArg (Event.smsLogged recipient) ?_⟩
    exact Text.utf8ByteSize_replace _ _ h
  | email value =>
    refine ⟨rfl, fun recipient => congrArg (Event.emailLogged recipient _) ?_⟩
    simp only [String.utf8ByteSize_append, h]

namespace Notifier

theorem akin_post (c : NotifierConfig) (recipient : String) {a b : Message} (h : a.Akin b) :
    (post c recipient a).Akin Eq m m' (post c recipient b) := by
  unfold post
  rw [h.channel]
  cases c.endpoint b.channel with
  | none => exact akin_throw _
  | some url =>
    refine Akin.bind_same (akin_fetch rfl) fun response => ?_
    exact Akin.ite (akin_log _) (akin_throw _)

theorem akin_deliver (n : Notifier) (recipient : String) {a b : Message} (h : a.Akin b) :
    (n.deliver recipient a).Akin Eq m m' (n.deliver recipient b) := by
  unfold deliver
  cases n with
  | outbox failure =>
    have hmodify : Action.Akin Eq m m'
        (modify fun w => { w with outbox := w.outbox ++ [⟨recipient, a⟩] })
        (modify fun w => { w with outbox := w.outbox ++ [⟨recipient, b⟩] }) :=
      fun _ _ hw => ⟨rfl, hw.cache, hw.store, hw.notifier, hw.responses, hw.log⟩
    refine hmodify.bind_same fun _ => ?_
    cases failure with
    | some e => exact akin_throw e
    | none => exact akin_pure rfl
  | log => exact h.logged recipient ▸ akin_log _
  | webhook c => exact akin_post c recipient h

end Notifier

namespace Otp

variable {c : OtpConfig} {u : Username}

theorem code_size (hm : m.Akin m') (c : OtpConfig) :
    (code c m).utf8ByteSize = (code c m').utf8ByteSize := by
  unfold code
  split
  · rfl
  · exact hm.code c.length

theorem akin_deliver (recipient : String) {a b : Message} (h : a.Akin b) :
    (deliver recipient a).Akin Eq m m' (deliver recipient b) := by
  refine akin_get_bind fun w w' hn => ?_
  dsimp only
  rw [hn]
  exact (w'.notifier.akin_deliver recipient h).tryCatch fun e => akin_log _

theorem akin_request (hm : m.Akin m') (purpose : OtpPurpose) (greeted : Option String) :
    (request c u purpose greeted).Akin Eq m m' (request c u purpose greeted) := by
  refine akin_read_bind ?_
  have hfields : [(codeField, code c m), (retryField, "0")].map
        (fun f => (f.1, CacheValue.veilField f.1 f.2)) =
      [(codeField, code c m'), (retryField, "0")].map
        fun f => (f.1, CacheValue.veilField f.1 f.2) := rfl
  refine (akin_cacheCreate hm _ hfields _).bind_same fun created => ?_
  refine (akin_require rfl _).bind_same fun _ => (akin_log _).bind_same fun _ => ?_
  exact Akin.ite (akin_pure rfl)
    (akin_deliver _ (message_akin c u (code_size hm c) purpose greeted))

/-- Two guesses of which both are right or none is. -/
theorem parallel_verify (hm : m.Akin m') (hw : w.Akin w') {guess guess' : String}
    (h : w.cache.holds m.now (key u) codeField guess =
      w'.cache.holds m'.now (key u) codeField guess') :
    Parallel Eq ((verify c u guess).perform m w) ((verify c u guess').perform m' w') := by
  have hcheck : Parallel Eq
      ((cached fun now => Cache.check (key u) codeField guess retryField c.maxRetries now).perform
        m w)
      ((cached fun now => Cache.check (key u) codeField guess' retryField c.maxRetries now).perform
        m' w') := by
    refine parallel_cached hm hw fun k d hk hd hkd => ?_
    have hretry : retryField ≠ codeField := by decide
    rw [hk, hd, ← hm.now] at h
    have hchecked :
        (k.check m.now (key u) codeField guess retryField c.maxRetries).1 =
          (d.check m.now (key u) codeField guess' retryField c.maxRetries).1 ∧
        (k.check m.now (key u) codeField guess retryField c.maxRetries).2.veil =
          (d.check m.now (key u) codeField guess' retryField c.maxRetries).2.veil :=
      (MemoryCache.check_akin hkd (fun hne => absurd rfl hne) (fun _ => h)
        fun he => absurd he hretry).imp_left (· hretry)
    exact ⟨hchecked.1, _, _, rfl, rfl, hchecked.2⟩
  refine parallel_bind hcheck fun r _ v v' _ _ hr hv => ?_
  subst hr
  cases r with
  | matched => exact akin_log _ v v' hv
  | mismatch n => exact ((akin_log _).bind_same fun _ => akin_reject _) v v' hv
  | locked => exact ((akin_log _).bind_same fun _ => akin_reject _) v v' hv
  | missing => exact akin_reject _ v v' hv

end Otp

/-! ### Accounts -/

/-- Asking a provider for the profile behind a code goes the same way whatever the secrets. -/
def OuterProvider.Blind (p : OuterProvider) : Prop :=
  ∀ code m m', m.Akin m' → (p.exchangeCode code).Akin Eq m m' (p.exchangeCode code)

namespace OuterProvider

theorem akin_address (url : String) :
    (IdentityProvider.address url).Akin Eq m m' (IdentityProvider.address url) :=
  Akin.ite (akin_pure rfl) (akin_throw _)

theorem akin_fetch {α : Type} (name : String) (f : Json → Option α) (r : Request) :
    (IdentityProvider.fetch name f r).Akin Eq m m' (IdentityProvider.fetch name f r) := by
  refine (Action.akin_fetch rfl).bind_same fun response => Akin.ite ?_ (akin_throw _)
  split
  · exact akin_pure rfl
  · exact akin_throw _

theorem blind_google (c : GoogleConfig) : (google c).Blind := fun _ _ _ _ =>
  (akin_address _).bind_same fun _ => (akin_fetch _ _ _).bind_same fun _ =>
    (akin_log _).bind_same fun _ => (akin_address _).bind_same fun _ =>
      (akin_fetch _ _ _).bind_same fun _ => akin_pure rfl

theorem blind_facebook (c : FacebookConfig) : (facebook c).Blind := fun _ _ _ _ =>
  (akin_address _).bind_same fun _ => (akin_fetch _ _ _).bind_same fun _ =>
    (akin_address _).bind_same fun _ => (akin_fetch _ _ _).bind_same fun _ => akin_pure rfl

end OuterProvider

namespace Accounts

variable {a : Accounts}

theorem alike_hashPassword (password password' : String) :
    (a.hashPassword password).Alike m m' (a.hashPassword password') := by
  refine akin_read_bind (akin_ofAnswer ?_)
  -- only the cost decides whether there is a hash
  unfold Password.hash
  split
  · trivial
  · rfl

theorem akin_needUser (name : Username) :
    (needUser name).Akin User.Akin m m' (needUser name) :=
  (akin_find fun s => s.findByUsername_veil name none).bind fun _ _ ho => akin_orReject ho _

theorem akin_needUserById (id : Int) :
    (needUserById id).Akin User.Akin m m' (needUserById id) :=
  (akin_find fun s => s.findById_veil id).bind fun _ _ ho => akin_orReject ho _

theorem akin_needActiveUser (id : Int) :
    (needActiveUser id).Akin User.Akin m m' (needActiveUser id) := by
  refine (akin_needUserById id).bind fun u u' hu => ?_
  obtain ⟨hash, rfl⟩ := hu.exists_hash
  have hinactive : inactive? { u with hashedPassword := hash } = inactive? u := rfl
  rw [hinactive]
  cases inactive? u with
  | some r => exact akin_reject r
  | none => exact akin_pure rfl

theorem alike_authenticate (hm : m.Akin m') (token : String) :
    (a.authenticate token).Alike m m' (a.authenticate token) :=
  (Tokens.akin_verify hm token).bind_same fun _ => (akin_require rfl _).bind_same fun _ =>
    (akin_needActiveUser _).alike

theorem alike_authenticateLimited (hm : m.Akin m') (token : String) :
    (a.authenticateLimited token).Alike m m' (a.authenticateLimited token) := by
  refine (Tokens.akin_verify hm token).bind_same fun c => Akin.ite ?_ ?_
  · exact (akin_needActiveUser _).bind fun _ _ _ => akin_pure trivial
  · refine (akin_needUserById _).bind fun u u' hu => ?_
    obtain ⟨hash, rfl⟩ := hu.exists_hash
    exact (akin_require rfl _).bind_same fun _ => (akin_require rfl _).bind_same fun _ =>
      akin_pure trivial

theorem alike_complete (hm : m.Akin m') {u u' : User} (hu : u.Akin u')
    {extra extra' : UserChanges} (he : extra.veil = extra'.veil) :
    (a.complete u extra).Alike m m' (a.complete u' extra') := by
  obtain ⟨hash, rfl⟩ := hu.exists_hash
  obtain ⟨hash', rfl⟩ := UserChanges.exists_hash he
  have hchanges : (signInChanges u extra m).veil = (signInChanges { u with hashedPassword := hash }
      { extra with hashedPassword := hash' } m').veil := by
    simp only [signInChanges, UserChanges.signIn, hm.timestamp]
    rfl
  refine akin_read_bind ((akin_updateUser u.id hchanges).bind fun v v' hv => ?_)
  obtain ⟨hash, rfl⟩ := hv.exists_hash
  refine (Tokens.alike_issue hm _ _ _).bind fun _ _ _ => ?_
  exact (akin_log _).bind_same fun _ => akin_pure trivial

/-- A password that fits in both worlds or in none. -/
theorem parallel_signInWithPassword (hm : m.Akin m') (hw : w.Akin w') (name : Username)
    {password password' : String} (roles : Option (List Role))
    (h : ∀ u u', w.store.findByUsername name roles = .ok (some u) →
      w'.store.findByUsername name roles = .ok (some u') →
      passwordFits password u.hashedPassword = passwordFits password' u'.hashedPassword) :
    Parallel (fun _ _ => True) ((a.signInWithPassword name password roles).perform m w)
      ((a.signInWithPassword name password' roles).perform m' w') := by
  have hfind : (query (·.findByUsername name roles)).Akin (Option.Rel User.Akin) m m'
      (query (·.findByUsername name roles)) := akin_find fun s => s.findByUsername_veil name roles
  rw [signInWithPassword_eq, signInWithPassword_eq]
  refine parallel_bind (hfind w w' hw) fun o o' v v' hx hx' ho hv => ?_
  obtain ⟨hfound, rfl⟩ := query_eq_ok.1 hx
  obtain ⟨hfound', rfl⟩ := query_eq_ok.1 hx'
  cases ho with
  | none => exact akin_reject _ _ _ hv
  | @some u u' hu =>
    have hfits := h u u' hfound hfound'
    obtain ⟨hash, rfl⟩ := hu.exists_hash
    have hunverified : unverified? name { u with hashedPassword := hash } = unverified? name u := by
      cases name <;> rfl
    simp only [orReject, pure_bind, hfits, hunverified]
    refine Akin.ite ?_ ?_ _ _ hv
    · exact (akin_log _).bind_same fun _ => akin_reject _
    · refine (akin_require rfl _).bind_same fun _ => ?_
      cases unverified? name u with
      | some r => exact akin_reject r
      | none => exact alike_complete hm hu rfl

theorem akin_findOrRegister (name : Username) :
    (findOrRegister name).Akin User.Akin m m' (findOrRegister name) := by
  refine (akin_find fun s => s.findByUsername_veil name none).bind fun o o' ho => ?_
  cases ho with
  | none =>
    refine (akin_createUser rfl).bind fun u u' hu => ?_
    obtain ⟨hash, rfl⟩ := hu.exists_hash
    exact (akin_log _).bind_same fun _ => akin_pure rfl
  | some hu =>
    obtain ⟨hash, rfl⟩ := hu.exists_hash
    exact (akin_require rfl _).bind_same fun _ => (akin_require rfl _).bind_same fun _ =>
      akin_pure rfl

theorem parallel_signInWithCode (hm : m.Akin m') (hw : w.Akin w') (name : Username)
    {code code' : String} (h : w.cache.holds m.now (Otp.key name) Otp.codeField code =
      w'.cache.holds m'.now (Otp.key name) Otp.codeField code') :
    Parallel (fun _ _ => True) ((a.signInWithCode name code).perform m w)
      ((a.signInWithCode name code').perform m' w') := by
  refine parallel_bind (Otp.parallel_verify hm hw h) fun _ _ v v' _ _ _ hv => ?_
  exact (akin_findOrRegister name).bind (fun u u' hu => alike_complete hm hu rfl) v v' hv

theorem akin_findOrCreate (p : SocialProfile) (email : String) :
    (a.findOrCreate p email).Akin User.Akin m m' (a.findOrCreate p email) := by
  refine (akin_find fun s => s.findByEmail_veil email).bind fun o o' ho => ?_
  cases ho with
  | none =>
    exact akin_read_bind ((alike_hashPassword _ _).bind fun _ _ _ => akin_createUser rfl)
  | some hu => exact akin_pure hu

theorem alike_signInWithProfile (hm : m.Akin m') (p : SocialProfile) :
    (a.signInWithProfile p).Alike m m' (a.signInWithProfile p) := by
  refine (akin_orReject_same _ _).bind_same fun email => ?_
  refine (akin_findOrCreate p email).bind fun u u' hu => ?_
  obtain ⟨hash, rfl⟩ := hu.exists_hash
  refine (akin_require rfl _).bind_same fun _ => (akin_require rfl _).bind_same fun _ => ?_
  have hreview : inReview? { u with hashedPassword := hash } = inReview? u := rfl
  rw [hreview]
  cases inReview? u with
  | some r => exact akin_reject r
  | none => exact alike_complete hm hu rfl

theorem alike_signInWithProvider (hm : m.Akin m') {p : OuterProvider} (hp : p.Blind)
    (code : String) : (a.signInWithProvider p.toIdentityProvider code).Alike m m'
      (a.signInWithProvider p.toIdentityProvider code) :=
  (hp code m m' hm).bind_same fun profile => (akin_log _).bind_same fun _ =>
    alike_signInWithProfile hm profile

theorem alike_signOut {actor actor' : User} (h : actor.Akin actor') (target : Option Int) :
    (signOut actor target).Alike m m' (signOut actor' target) := by
  obtain ⟨hash, rfl⟩ := h.exists_hash
  refine (akin_require rfl _).bind_same fun _ => (akin_updateUser _ rfl).bind fun _ _ _ => ?_
  exact (akin_log _).bind_same fun _ => akin_pure trivial

/-- Old passwords that both fit or both do not. -/
theorem alike_changePassword (hm : m.Akin m') {u u' : User} (hu : u.Akin u')
    {old old' : Option String} (new new' : String) (limited : Bool)
    (h : limited = false → Option.Rel
      (fun p p' => passwordFits p u.hashedPassword = passwordFits p' u'.hashedPassword) old old') :
    (a.changePassword u old new limited).Alike m m' (a.changePassword u' old' new' limited) := by
  obtain ⟨hash, rfl⟩ := hu.exists_hash
  have hveil (hash hash' : String) :
      (passwordChanges hash).veil = (passwordChanges hash').veil := rfl
  cases limited with
  | true =>
    rw [changePassword_limited, changePassword_limited]
    refine (alike_hashPassword new new').bind fun hash hash' _ => ?_
    exact (alike_complete hm hu (hveil hash hash')).map fun _ _ _ => trivial
  | false =>
    rw [changePassword_full, changePassword_full]
    have hold : (requireOldPassword u old).Akin Eq m m'
        (requireOldPassword { u with hashedPassword := hash } old') :=
      (akin_orReject (h rfl) _).bind fun _ _ hfits => akin_require hfits _
    refine hold.bind_same fun _ => (alike_hashPassword new new').bind fun hash hash' _ => ?_
    refine (akin_updateUser u.id (hveil hash hash')).bind fun _ _ _ => ?_
    exact (akin_log _).bind_same fun _ => akin_pure trivial

theorem akin_requestSignInCode (hm : m.Akin m') (name : Username) :
    (a.requestSignInCode name).Akin Eq m m' (a.requestSignInCode name) := by
  refine (akin_find fun s => s.findByUsername_veil name none).bind fun o o' ho => ?_
  have hgreeted : o.bind User.displayName = o'.bind User.displayName := by
    cases ho with
    | none => rfl
    | some hu =>
      obtain ⟨hash, rfl⟩ := hu.exists_hash
      rfl
  rw [hgreeted]
  exact Otp.akin_request hm _ _

theorem akin_requestResetCode (hm : m.Akin m') (name : Username) :
    (a.requestResetCode name).Akin Eq m m' (a.requestResetCode name) := by
  refine (akin_needUser name).bind fun u u' hu => ?_
  obtain ⟨hash, rfl⟩ := hu.exists_hash
  exact Otp.akin_request hm _ _

/-- A known user brings codes of which both are right or none is. -/
theorem parallel_needUser_verify {α β : Type} (hm : m.Akin m') (hw : w.Akin w') (name : Username)
    {code code' : String} (h : w.cache.holds m.now (Otp.key name) Otp.codeField code =
      w'.cache.holds m'.now (Otp.key name) Otp.codeField code')
    {f : User → Action α} {f' : User → Action β}
    (hf : ∀ u u', u.Akin u' → (f u).Alike m m' (f' u')) :
    Parallel (fun _ _ => True)
      ((do let u ← needUser name; Otp.verify a.otp name code; f u).perform m w)
      ((do let u ← needUser name; Otp.verify a.otp name code'; f' u).perform m' w') := by
  refine parallel_bind (akin_needUser name w w' hw) fun u u' v v' hx hx' hu hv => ?_
  -- looking for the user leaves the cache alone
  have hcache := (keeps_needUser (F := Frame.same) name m w).1
  have hcache' := (keeps_needUser (F := Frame.same) name m' w').1
  rw [hx] at hcache
  rw [hx'] at hcache'
  rw [← hcache, ← hcache'] at h
  refine parallel_bind (Otp.parallel_verify hm hv h) fun _ _ x x' _ _ _ hx => ?_
  exact hf u u' hu x x' hx

end Accounts

/-! ### Operations -/

namespace Operation

/-- Whether an operation is given a password, a one-time code, or a user with a hash. -/
def hasSecret : Operation → Bool
  | signInWithPassword .. | signInWithCode .. | signOut .. | changePassword .. | verifyCode ..
  | verifyResetCode .. | effective .. | authorize .. | authorizeStaff .. | checkCode .. => true
  | _ => false

/-- Two operations are the same but for passwords, one-time codes, and the hashes of users. -/
inductive Akin : Operation → Operation → Prop
  | same (op : Operation) (h : op.hasSecret = false) : Akin op op
  | signInWithPassword (name : Username) (password password' : String)
      (roles : Option (List Role)) :
      Akin (.signInWithPassword name password roles) (.signInWithPassword name password' roles)
  | signInWithCode (name : Username) (code code' : String) :
      Akin (.signInWithCode name code) (.signInWithCode name code')
  | signOut {u u' : User} (h : u.Akin u') (target : Option Int) :
      Akin (.signOut u target) (.signOut u' target)
  | changePassword {u u' : User} (h : u.Akin u') {old old' : Option String}
      (hold : old.isSome = old'.isSome) (new new' : String) (limited : Bool) :
      Akin (.changePassword u old new limited) (.changePassword u' old' new' limited)
  | verifyCode (name : Username) (code code' : String) :
      Akin (.verifyCode name code) (.verifyCode name code')
  | verifyResetCode (name : Username) (code code' : String) :
      Akin (.verifyResetCode name code) (.verifyResetCode name code')
  | effective {u u' : User} (h : u.Akin u') : Akin (.effective u) (.effective u')
  | authorize {u u' : User} (h : u.Akin u') (scope : Option Scope) :
      Akin (.authorize u scope) (.authorize u' scope)
  | authorizeStaff {u u' : User} (h : u.Akin u') (scope : Option Scope) :
      Akin (.authorizeStaff u scope) (.authorizeStaff u' scope)
  | checkCode (name : Username) (code code' : String) :
      Akin (.checkCode name code) (.checkCode name code')

/-- Whether the password or the one-time code that an operation is given is right. -/
def verdict (m : Moment) (w : World) : Operation → Bool
  | signInWithPassword name password roles =>
    match w.store.findByUsername name roles with
    | .ok (some u) => Accounts.passwordFits password u.hashedPassword
    | _ => false
  | changePassword u (some old) _ false => Accounts.passwordFits old u.hashedPassword
  | signInWithCode name code | verifyCode name code | verifyResetCode name code
  | checkCode name code => w.cache.holds m.now (Otp.key name) Otp.codeField code
  | _ => false

/-- A provider that is asked by an operation does not look at secrets. -/
def Blind : Operation → Prop
  | signInWithProvider p _ => p.Blind
  | _ => True

/-- An operation that is given no secret goes the same way. -/
theorem alike_perform {a : Accounts} {op : Operation} (h : op.hasSecret = false) (hb : op.Blind)
    (hm : m.Akin m') : (op.perform a).Alike m m' (op.perform a) := by
  have hmap {α : Type} {f : α → Result} {x : Action α} {R : α → α → Prop}
      (hx : x.Akin R m m' x) : (f <$> x).Alike m m' (f <$> x) := hx.map fun _ _ _ => trivial
  cases op
  case signInWithProfile p => exact hmap (Accounts.alike_signInWithProfile hm p)
  case signInWithProvider p code => exact hmap (Accounts.alike_signInWithProvider hm hb code)
  case requestSignInCode name => exact hmap (Accounts.akin_requestSignInCode hm name)
  case requestResetCode name => exact hmap (Accounts.akin_requestResetCode hm name)
  case authenticate token => exact hmap (Accounts.alike_authenticate hm token)
  case authenticateLimited token => exact hmap (Accounts.alike_authenticateLimited hm token)
  case issue user role limited => exact hmap (Tokens.alike_issue hm user role limited)
  case issueLimited user role => exact hmap (Tokens.alike_issueLimited user role)
  case verifyToken token => exact hmap (Tokens.akin_verify hm token)
  case refresh token => exact hmap (Tokens.alike_refresh hm token)
  case requestCode name purpose greeted => exact hmap (Otp.akin_request hm purpose greeted)
  case createGroup g => exact hmap (Groups.akin_create g)
  case updateGroup name u => exact hmap (Groups.akin_update name u)
  case deleteGroups names => exact hmap (Groups.akin_delete names)
  all_goals cases h

/-- Two operations that differ in secrets only go the same way if what they are given is right for
both or for none. -/
theorem parallel_perform {a : Accounts} {op op' : Operation} (h : op.Akin op') (hb : op.Blind)
    (hm : m.Akin m') (hw : w.Akin w') (hv : op.verdict m w = op'.verdict m' w') :
    Parallel (fun _ _ => True) ((op.perform a).perform m w) ((op'.perform a).perform m' w') := by
  have hmap {α β : Type} {f : α → Result} {g : β → Result} {x : Action α} {x' : Action β}
      {R : α → β → Prop} (hx : Parallel R (x.perform m w) (x'.perform m' w')) :
      Parallel (fun _ _ => True) ((f <$> x).perform m w) ((g <$> x').perform m' w') := by
    rw [perform_map, perform_map]
    exact ⟨hx.answer.map fun _ _ _ => trivial, hx.world⟩
  cases h with
  | same _ hs => exact alike_perform hs hb hm w w' hw
  | signInWithPassword name password password' roles =>
    refine hmap (Accounts.parallel_signInWithPassword hm hw name roles fun u u' hu hu' => ?_)
    simpa only [verdict, hu, hu'] using hv
  | signInWithCode name code code' => exact hmap (Accounts.parallel_signInWithCode hm hw name hv)
  | signOut h target => exact hmap (Accounts.alike_signOut h target w w' hw)
  | @changePassword u u' h old old' hold new new' limited =>
    refine hmap (Accounts.alike_changePassword hm h new new' limited (fun hl => ?_) w w' hw)
    subst hl
    rcases old with _ | p <;> rcases old' with _ | p'
    · exact .none
    · cases hold
    · cases hold
    · exact .some hv
  | verifyCode name code code' =>
    exact hmap (Accounts.parallel_needUser_verify hm hw name hv fun u u' hu =>
      Accounts.alike_complete hm hu rfl)
  | verifyResetCode name code code' =>
    refine hmap (Accounts.parallel_needUser_verify hm hw name hv fun u u' hu => ?_)
    obtain ⟨hash, rfl⟩ := hu.exists_hash
    exact Tokens.alike_issueLimited u.id u.role
  | effective h =>
    obtain ⟨hash, rfl⟩ := h.exists_hash
    exact hmap (Permissions.akin_effective _ w w' hw)
  | authorize h scope =>
    obtain ⟨hash, rfl⟩ := h.exists_hash
    exact hmap (Permissions.akin_check _ scope w w' hw)
  | authorizeStaff h scope =>
    obtain ⟨hash, rfl⟩ := h.exists_hash
    exact hmap (((akin_require rfl _).bind_same fun _ =>
      Permissions.akin_check _ scope) w w' hw)
  | checkCode name code code' => exact hmap (Otp.parallel_verify hm hw hv)

end Operation

end AuthCore
