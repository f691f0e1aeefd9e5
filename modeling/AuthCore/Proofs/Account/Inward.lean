import AuthCore.Proofs.Account.Frame

/-!
# What operations do not look at

An action is inward if all it looks at is the cache and the store, and all it changes is the cache,
the store and the log: how messages are delivered, what lies in the outbox and who can be reached
over the network make no difference to it, and it leaves them as they are. Composed of inward parts,
an action is inward. All operations are, except for those that request a one-time code, which ends
in a delivery, and the sign-in with a provider, which begins with asking it.

What is inward delivers nothing (`Action.SilentAt`), and it answers the same in any two worlds with
the same cache and the same store (`Action.Agrees`). Asking a provider delivers nothing either, but
it uses the network (`Action.QuietAt`).
-/

namespace AuthCore

variable {α β : Type}

namespace Action

/-- An action looks at the cache and the store only, and changes nothing but them and the log. -/
def Inward (x : Action α) : Prop :=
  ∀ m c s, ∃ r c' s' es, ∀ w : World, w.cache = c → w.store = s →
    x.perform m w = (r, { w with cache := c', store := s', log := w.log ++ es })

variable {x : Action α}

/-! ### Composed actions -/

theorem inward_pure (a : α) : (pure a : Action α).Inward := by
  intro m c s
  refine ⟨.ok a, c, s, [], fun w hc hs => ?_⟩
  rw [perform_pure, List.append_nil, ← hc, ← hs]

theorem Inward.bind {f : α → Action β} (hx : x.Inward) (hf : ∀ a, (f a).Inward) :
    (x >>= f).Inward := by
  intro m c s
  obtain ⟨r, d, t, es, hx⟩ := hx m c s
  cases r with
  | error e => exact ⟨.error e, d, t, es, fun w hc hs => perform_bind_error (hx w hc hs) f⟩
  | ok a =>
    obtain ⟨r, d', t', fs, hf⟩ := hf a m d t
    refine ⟨r, d', t', es ++ fs, fun w hc hs => ?_⟩
    rw [perform_bind_ok (hx w hc hs), hf _ rfl rfl, List.append_assoc]

theorem Inward.map (f : α → β) (hx : x.Inward) : (f <$> x).Inward := by
  rw [map_eq_pure_bind]
  exact hx.bind fun a => inward_pure (f a)

theorem Inward.ite {c : Prop} [Decidable c] {y : Action α} (hx : x.Inward) (hy : y.Inward) :
    (if c then x else y).Inward := by
  split
  · exact hx
  · exact hy

theorem inward_forM {f : β → Action PUnit} (h : ∀ b, (f b).Inward) (bs : List β) :
    (bs.forM f).Inward := by
  induction bs with
  | nil => exact inward_pure _
  | cons b bs ih => exact (h b).bind fun _ => ih

/-! ### Single actions -/

theorem inward_read : (read : Action Moment).Inward := by
  intro m c s
  refine ⟨.ok m, c, s, [], fun w hc hs => ?_⟩
  rw [perform_read, List.append_nil, ← hc, ← hs]

theorem inward_log (e : Event) : (log e).Inward := by
  intro m c s
  refine ⟨.ok (), c, s, [e], fun w hc hs => ?_⟩
  rw [perform_log, ← hc, ← hs]

theorem inward_ofAnswer (r : Answer α) : (ofAnswer r).Inward := by
  intro m c s
  refine ⟨r, c, s, [], fun w hc hs => ?_⟩
  rw [perform_ofAnswer, List.append_nil, ← hc, ← hs]

theorem inward_reject (e : AuthError) : (reject e : Action α).Inward :=
  inward_ofAnswer (.error (.auth e))

theorem inward_require (b : Bool) (e : AuthError) : (require b e).Inward :=
  (inward_pure ()).ite (inward_reject e)

theorem inward_orReject (e : AuthError) (o : Option α) : (orReject e o).Inward := by
  cases o with
  | some a => exact inward_pure a
  | none => exact inward_reject e

theorem inward_query (f : Store → Answer α) : (query f).Inward := by
  intro m c s
  refine ⟨f s, c, s, [], fun w hc hs => ?_⟩
  rw [perform_query, List.append_nil, ← hc, ← hs]

theorem inward_change (f : Store → Answer α × Store) : (change f).Inward := by
  intro m c s
  refine ⟨(f s).1, c, (f s).2, [], fun w hc hs => ?_⟩
  rw [perform_change, List.append_nil, ← hc, ← hs]

theorem inward_cached (f : Nat → Cache → Except CacheFault α × Cache) : (cached f).Inward := by
  intro m c s
  refine ⟨(f m.now c).1.mapError .cache, (f m.now c).2, s, [], fun w hc hs => ?_⟩
  rw [perform_cached, List.append_nil, ← hc, ← hs]

theorem inward_cacheSet (key text : String) (ttl : Option Nat) :
    (cacheSet key text ttl).Inward := by
  intro m c s
  refine ⟨(c.set key text ttl m.now).1.mapError .cache, (c.set key text ttl m.now).2, s,
    writeEvents key c true (c.set key text ttl m.now).1, fun w hc hs => ?_⟩
  rw [perform_cacheSet, ← hc, ← hs]

theorem inward_cacheCreate (key : String) (fields : List (String × String)) (ttl : Nat) :
    (cacheCreate key fields ttl).Inward := by
  intro m c s
  refine ⟨(c.createHash key fields ttl m.now).1.mapError .cache,
    (c.createHash key fields ttl m.now).2, s,
    writeEvents key c false (c.createHash key fields ttl m.now).1, fun w hc hs => ?_⟩
  rw [perform_cacheCreate, ← hc, ← hs]

end Action

open AuthCore.Action

/-! ### Permissions and groups -/

namespace Permissions

theorem inward_effective (u : User) : (effective u).Inward := by
  refine (inward_pure _).ite <| (inward_query _).bind fun groups => ?_
  exact (inward_forM (fun _ => inward_log _) _).bind fun _ => inward_pure _

theorem inward_check (u : User) (scope : Option Scope) : (check u scope).Inward := by
  unfold check
  cases scope with
  | none => exact inward_pure ()
  | some s =>
    refine (inward_effective u).bind fun map => (inward_pure ()).ite ?_
    exact (inward_log _).bind fun _ => inward_reject _

theorem inward_validate (ps : List Permission) : (validate ps).Inward :=
  inward_forM (fun _ => (inward_query _).bind fun e => (inward_orReject _ e).bind fun _ =>
    inward_require _ _) ps

end Permissions

namespace Groups

theorem inward_create (g : Group) : (create g).Inward :=
  (Permissions.inward_validate _).bind fun _ => (inward_change _).bind fun _ =>
    (inward_log _).bind fun _ => inward_pure _

theorem inward_update (name : String) (u : GroupUpdate) : (update name u).Inward := by
  have hrest (_ : PUnit) : Action.Inward (do
      let g ← Action.change (·.updateGroup name u)
      Action.log (.groupUpdated name)
      return g) :=
    (inward_change _).bind fun _ => (inward_log _).bind fun _ => inward_pure _
  unfold update
  cases u.permissions with
  | some ps => exact (Permissions.inward_validate ps).bind hrest
  | none => exact (inward_pure ()).bind hrest

theorem inward_delete (names : List String) : (delete names).Inward :=
  (inward_query _).bind fun _ => (inward_change _).bind fun _ => (inward_log _).bind fun _ =>
    (inward_pure _).ite (inward_reject _)

end Groups

/-! ### Tokens and one-time codes -/

namespace Tokens

variable {t : Tokens}

theorem inward_issue (user : Int) (role : Role) (limited : Bool) :
    (t.issue user role limited).Inward :=
  inward_read.bind fun _ => (inward_cacheSet _ _ _).bind fun _ => (inward_log _).bind fun _ =>
    inward_pure _

theorem inward_issueLimited (user : Int) (role : Role) : (t.issueLimited user role).Inward :=
  inward_read.bind fun _ => inward_pure _

theorem inward_verify (token : String) : (t.verify token).Inward :=
  inward_read.bind fun _ => inward_ofAnswer _

theorem inward_refresh (token : String) : (t.refresh token).Inward := by
  rw [refresh_eq]
  refine (inward_cached _).bind fun o => (inward_orReject _ o).bind fun entry => ?_
  refine (inward_ofAnswer _).bind fun id => Inward.ite ?_ ?_
  · exact (inward_log _).bind fun _ => inward_reject _
  · refine (inward_query _).bind fun o => (inward_orReject _ o).bind fun user => ?_
    refine (inward_require _ _).bind fun _ => (inward_cached _).bind fun _ => ?_
    refine (inward_require _ _).bind fun _ => (inward_issue _ _ _).bind fun _ => ?_
    exact (inward_log _).bind fun _ => inward_pure _

end Tokens

theorem Otp.inward_verify (c : OtpConfig) (u : Username) (guess : String) :
    (verify c u guess).Inward := by
  refine (inward_cached _).bind fun r => ?_
  cases r with
  | matched => exact inward_log _
  | mismatch n => exact (inward_log _).bind fun _ => inward_reject _
  | locked => exact (inward_log _).bind fun _ => inward_reject _
  | missing => exact inward_reject _

/-! ### Accounts -/

namespace Accounts

variable {a : Accounts}

theorem inward_needUser (name : Username) : (needUser name).Inward :=
  (inward_query _).bind fun o => inward_orReject _ o

theorem inward_needUserById (id : Int) : (needUserById id).Inward :=
  (inward_query _).bind fun o => inward_orReject _ o

theorem inward_needActiveUser (id : Int) : (needActiveUser id).Inward := by
  refine (inward_needUserById id).bind fun u => ?_
  cases inactive? u with
  | some e => exact inward_reject e
  | none => exact inward_pure u

theorem inward_authenticate (token : String) : (a.authenticate token).Inward :=
  (Tokens.inward_verify token).bind fun _ => (inward_require _ _).bind fun _ =>
    inward_needActiveUser _

theorem inward_authenticateLimited (token : String) : (a.authenticateLimited token).Inward := by
  refine (Tokens.inward_verify token).bind fun c => Inward.ite ?_ ?_
  · exact (inward_needActiveUser _).bind fun _ => inward_pure _
  · refine (inward_needUserById _).bind fun u => (inward_require _ _).bind fun _ => ?_
    exact (inward_require _ _).bind fun _ => inward_pure _

theorem inward_authorizeStaff (u : User) (scope : Option Scope) :
    (authorizeStaff u scope).Inward :=
  (inward_require _ _).bind fun _ => Permissions.inward_check u scope

theorem inward_hashPassword (password : String) : (a.hashPassword password).Inward :=
  inward_read.bind fun _ => inward_ofAnswer _

theorem inward_complete (u : User) (extra : UserChanges) : (a.complete u extra).Inward :=
  inward_read.bind fun _ => (inward_change _).bind fun _ =>
    (Tokens.inward_issue _ _ _).bind fun _ => (inward_log _).bind fun _ => inward_pure _

theorem inward_signInWithPassword (name : Username) (password : String)
    (roles : Option (List Role)) : (a.signInWithPassword name password roles).Inward := by
  rw [signInWithPassword_eq]
  refine (inward_query _).bind fun o => (inward_orReject _ o).bind fun u => Inward.ite ?_ ?_
  · exact (inward_log _).bind fun _ => inward_reject _
  · refine (inward_require _ _).bind fun _ => ?_
    cases unverified? name u with
    | some e => exact inward_reject e
    | none => exact inward_complete u _

theorem inward_findOrRegister (name : Username) : (findOrRegister name).Inward := by
  refine (inward_query _).bind fun o => ?_
  cases o with
  | some u =>
    exact (inward_require _ _).bind fun _ => (inward_require _ _).bind fun _ => inward_pure u
  | none => exact (inward_change _).bind fun u => (inward_log _).bind fun _ => inward_pure u

theorem inward_findOrCreate (p : SocialProfile) (email : String) :
    (a.findOrCreate p email).Inward := by
  refine (inward_query _).bind fun o => ?_
  cases o with
  | some u => exact inward_pure u
  | none =>
    exact inward_read.bind fun _ => (inward_hashPassword _).bind fun _ => inward_change _

theorem inward_signInWithCode (name : Username) (code : String) :
    (a.signInWithCode name code).Inward :=
  (Otp.inward_verify _ _ _).bind fun _ => (inward_findOrRegister name).bind fun u =>
    inward_complete u _

theorem inward_signInWithProfile (p : SocialProfile) : (a.signInWithProfile p).Inward := by
  refine (inward_orReject _ _).bind fun email => (inward_findOrCreate p email).bind fun u => ?_
  refine (inward_require _ _).bind fun _ => (inward_require _ _).bind fun _ => ?_
  cases inReview? u with
  | some e => exact inward_reject e
  | none => exact inward_complete u _

theorem inward_signOut (actor : User) (target : Option Int) : (signOut actor target).Inward :=
  (inward_require _ _).bind fun _ => (inward_change _).bind fun _ => (inward_log _).bind fun _ =>
    inward_pure _

theorem inward_changePassword (u : User) (old : Option String) (new : String) (limited : Bool) :
    (a.changePassword u old new limited).Inward := by
  cases limited with
  | true =>
    rw [changePassword_limited]
    exact (inward_hashPassword _).bind fun _ => (inward_complete u _).map _
  | false =>
    rw [changePassword_full]
    have hold : (requireOldPassword u old).Inward :=
      (inward_orReject _ old).bind fun _ => inward_require _ _
    refine hold.bind fun _ => (inward_hashPassword _).bind fun _ => ?_
    exact (inward_change _).bind fun _ => (inward_log _).bind fun _ => inward_pure _

theorem inward_verifyCode (name : Username) (code : String) : (a.verifyCode name code).Inward :=
  (inward_needUser name).bind fun u => (Otp.inward_verify _ _ _).bind fun _ =>
    inward_complete u _

theorem inward_verifyResetCode (name : Username) (code : String) :
    (a.verifyResetCode name code).Inward :=
  (inward_needUser name).bind fun _ => (Otp.inward_verify _ _ _).bind fun _ =>
    Tokens.inward_issueLimited _ _

end Accounts

/-! ### Whole operations -/

namespace Operation

/-- Whether an operation requests a one-time code. -/
def requestsCode : Operation → Bool
  | requestSignInCode .. | requestResetCode .. | requestCode .. => true
  | _ => false

/-- The provider that an operation asks first, and the code that it is given. -/
def provider? : Operation → Option (OuterProvider × String)
  | signInWithProvider provider code => some (provider, code)
  | _ => none

/-- An operation that neither requests a code nor asks a provider is inward. -/
theorem inward_perform {a : Accounts} {op : Operation} (h : op.requestsCode = false)
    (hp : op.provider? = none) : (op.perform a).Inward := by
  cases op with
  | signInWithPassword name password roles =>
    exact (Accounts.inward_signInWithPassword name password roles).map _
  | signInWithCode name code => exact (Accounts.inward_signInWithCode name code).map _
  | signInWithProfile p => exact (Accounts.inward_signInWithProfile p).map _
  | signInWithProvider provider code => cases hp
  | signOut actor target => exact (Accounts.inward_signOut actor target).map _
  | changePassword u old new limited =>
    exact (Accounts.inward_changePassword u old new limited).map _
  | requestSignInCode name => cases h
  | requestResetCode name => cases h
  | verifyCode name code => exact (Accounts.inward_verifyCode name code).map _
  | verifyResetCode name code => exact (Accounts.inward_verifyResetCode name code).map _
  | authenticate token => exact (Accounts.inward_authenticate token).map _
  | authenticateLimited token => exact (Accounts.inward_authenticateLimited token).map _
  | effective u => exact (Permissions.inward_effective u).map _
  | authorize u scope => exact (Permissions.inward_check u scope).map _
  | authorizeStaff u scope => exact (Accounts.inward_authorizeStaff u scope).map _
  | issue user role limited => exact (Tokens.inward_issue user role limited).map _
  | issueLimited user role => exact (Tokens.inward_issueLimited user role).map _
  | verifyToken token => exact (Tokens.inward_verify token).map _
  | refresh token => exact (Tokens.inward_refresh token).map _
  | requestCode name purpose greeted => cases h
  | checkCode name code => exact (Otp.inward_verify _ name code).map _
  | createGroup g => exact (Groups.inward_create g).map _
  | updateGroup name u => exact (Groups.inward_update name u).map _
  | deleteGroups names => exact (Groups.inward_delete names).map _

end Operation

/-! ### Actions that deliver nothing -/

/-- The world with another way of delivering messages. -/
def World.via (w : World) (n : Notifier) : World := { w with notifier := n }

namespace Action

/-- An action delivers nothing in a world, and how messages are delivered makes no difference
to it. -/
structure QuietAt (m : Moment) (w : World) (x : Action α) : Prop where
  via : ∀ n, x.perform m (w.via n) = ((x.perform m w).1, (x.perform m w).2.via n)
  outbox : (x.perform m w).2.outbox = w.outbox

/-- An action delivers nothing in a world and does not use the network either. -/
structure SilentAt (m : Moment) (w : World) (x : Action α) : Prop extends QuietAt m w x where
  network : (x.perform m w).2.network = w.network

variable {m : Moment} {w : World} {x : Action α}

theorem Inward.silentAt (h : x.Inward) (m : Moment) (w : World) : x.SilentAt m w := by
  obtain ⟨r, c, s, es, h⟩ := h m w.cache w.store
  have hw := h w rfl rfl
  refine ⟨⟨fun n => ?_, ?_⟩, ?_⟩
  · rw [h (w.via n) rfl rfl, hw]
    rfl
  · rw [hw]
  · rw [hw]

theorem Inward.quietAt (h : x.Inward) (m : Moment) (w : World) : x.QuietAt m w :=
  (h.silentAt m w).toQuietAt

theorem QuietAt.bind {f : α → Action β} (hx : x.QuietAt m w)
    (hf : ∀ a v, x.perform m w = (.ok a, v) → (f a).QuietAt m v) : (x >>= f).QuietAt m w := by
  obtain ⟨hvia, houtbox⟩ := hx
  rcases hw : x.perform m w with ⟨e | a, v⟩
  · rw [hw] at hvia houtbox
    have hfail := perform_bind_error hw f
    refine ⟨fun n => ?_, by rw [hfail, ← houtbox]⟩
    rw [perform_bind_error (hvia n), hfail]
  · rw [hw] at hvia houtbox
    have hgo := perform_bind_ok hw f
    obtain ⟨hvia', houtbox'⟩ := hf a v hw
    refine ⟨fun n => ?_, by rw [hgo, houtbox', ← houtbox]⟩
    rw [perform_bind_ok (hvia n), hvia' n, hgo]

theorem QuietAt.map (f : α → β) (hx : x.QuietAt m w) : (f <$> x).QuietAt m w := by
  rw [map_eq_pure_bind]
  exact hx.bind fun a v _ => (inward_pure (f a)).quietAt m v

theorem SilentAt.map (f : α → β) (hx : x.SilentAt m w) : (f <$> x).SilentAt m w := by
  refine ⟨hx.toQuietAt.map f, ?_⟩
  rw [perform_map]
  exact hx.network

theorem quietAt_throw (e : Error) : (throw e : Action α).QuietAt m w := ⟨fun _ => rfl, rfl⟩

theorem quietAt_send (r : Request) : (send r).QuietAt m w := ⟨fun _ => rfl, rfl⟩

theorem quietAt_fetch (r : Request) : (fetch r).QuietAt m w := by
  unfold fetch
  split
  · refine (quietAt_send r).bind fun o v _ => ?_
    cases o with
    | some a => exact (inward_pure a).quietAt m v
    | none => exact quietAt_throw _
  · exact quietAt_throw _

end Action

namespace OuterProvider

/-- Asking a provider for the profile behind a code delivers nothing. -/
def Quiet (p : OuterProvider) : Prop := ∀ code m w, (p.exchangeCode code).QuietAt m w

variable {m : Moment} {w : World}

theorem quietAt_address (url : String) : (IdentityProvider.address url).QuietAt m w := by
  unfold IdentityProvider.address
  split
  · exact (inward_pure url).quietAt m w
  · exact quietAt_throw _

theorem quietAt_fetch (name : String) (f : Json → Option α) (r : Request) :
    (IdentityProvider.fetch name f r).QuietAt m w := by
  refine (Action.quietAt_fetch r).bind fun response v _ => ?_
  split
  · split
    · exact (inward_pure _).quietAt m v
    · exact quietAt_throw _
  · exact quietAt_throw _

theorem quiet_google (c : GoogleConfig) : (google c).Quiet := fun _ m _ =>
  (quietAt_address _).bind fun _ _ _ => (quietAt_fetch _ _ _).bind fun _ v _ =>
    ((inward_log _).quietAt m v).bind fun _ _ _ => (quietAt_address _).bind fun _ _ _ =>
      (quietAt_fetch _ _ _).bind fun _ v _ => (inward_pure _).quietAt m v

theorem quiet_facebook (c : FacebookConfig) : (facebook c).Quiet := fun _ m _ =>
  (quietAt_address _).bind fun _ _ _ => (quietAt_fetch _ _ _).bind fun _ _ _ =>
    (quietAt_address _).bind fun _ _ _ => (quietAt_fetch _ _ _).bind fun _ v _ =>
      (inward_pure _).quietAt m v

end OuterProvider

/-! ### Actions in two worlds -/

/-- Two worlds have the same cache and the same store. -/
structure World.SameInside (w w' : World) : Prop where
  cache : w'.cache = w.cache
  store : w'.store = w.store

/-- An action answers the same in two worlds and leaves the same cache and the same store. -/
structure Action.Agrees (m : Moment) (w w' : World) (x : Action α) : Prop where
  answer : (x.perform m w').1 = (x.perform m w).1
  inside : (x.perform m w).2.SameInside (x.perform m w').2

namespace Action

variable {m : Moment} {w w' : World} {x : Action α}

theorem Inward.agrees (h : x.Inward) (hw : w.SameInside w') : x.Agrees m w w' := by
  obtain ⟨r, c, s, es, h⟩ := h m w.cache w.store
  have hleft := h w rfl rfl
  have hright := h w' hw.cache hw.store
  constructor
  · rw [hleft, hright]
  · rw [hleft, hright]
    exact ⟨rfl, rfl⟩

theorem Agrees.bind {f : α → Action β} (hx : x.Agrees m w w')
    (hf : ∀ a v v', v.SameInside v' → (f a).Agrees m v v') : (x >>= f).Agrees m w w' := by
  obtain ⟨hanswer, hinside⟩ := hx
  rcases hw : x.perform m w with ⟨r, v⟩
  rcases hw' : x.perform m w' with ⟨r', v'⟩
  rw [hw, hw'] at hanswer hinside
  obtain rfl : r' = r := hanswer
  -- both first parts fail with one error, or both second parts begin with one value
  cases r' with
  | error e =>
    have hleft := perform_bind_error hw f
    have hright := perform_bind_error hw' f
    constructor
    · rw [hleft, hright]
    · rw [hleft, hright]
      exact hinside
  | ok a =>
    obtain ⟨hanswer, hrest⟩ := hf a v v' hinside
    constructor
    · rw [perform_bind_ok hw, perform_bind_ok hw', hanswer]
    · rw [perform_bind_ok hw, perform_bind_ok hw']
      exact hrest

theorem Agrees.map (f : α → β) (hx : x.Agrees m w w') : (f <$> x).Agrees m w w' := by
  rw [map_eq_pure_bind]
  exact hx.bind fun a v v' hv => (inward_pure (f a)).agrees hv

/-- What always succeeds and leaves the cache and the store alone agrees in all such worlds. -/
theorem agrees_of_same {x : Action Unit} (hx : Frame.same.Keeps x)
    (hok : ∀ v, (x.perform m v).1 = .ok ()) (hw : w.SameInside w') : x.Agrees m w w' := by
  refine ⟨by rw [hok, hok], ?_⟩
  obtain ⟨hcache, hstore⟩ := hx m w
  obtain ⟨hcache', hstore'⟩ := hx m w'
  constructor
  · rw [hcache, hcache', hw.cache]
  · rw [hstore, hstore', hw.store]

end Action

/-! ### Operations that ask a provider -/

/-- A provider that a step asks delivers nothing. -/
def Step.Quiet (s : Step) : Prop :=
  ∀ provider code, s.operation.provider? = some (provider, code) → provider.Quiet

namespace Operation

variable {a : Accounts} {op : Operation} {m : Moment} {w w' : World}

/-- An operation that asks a provider asks it before all else. -/
theorem exists_perform_of_provider? {provider : OuterProvider} {code : String}
    (h : op.provider? = some (provider, code)) :
    ∃ rest : SocialProfile → Action Result, (∀ p, (rest p).Inward) ∧
      op.perform a = provider.exchangeCode code >>= rest := by
  cases op with
  | signInWithProvider provider code =>
    obtain ⟨rfl, rfl⟩ := Prod.mk.inj (Option.some.inj h)
    refine ⟨fun p => Result.pair <$> (Action.log (.profileReceived provider.name) >>= fun _ =>
      a.signInWithProfile p), fun p => ?_, ?_⟩
    · exact ((inward_log _).bind fun _ => Accounts.inward_signInWithProfile p).map _
    · rw [perform, Accounts.signInWithProvider, map_bind]
  | _ => cases h

theorem quietAt_perform (h : op.requestsCode = false)
    (hq : ∀ provider code, op.provider? = some (provider, code) → provider.Quiet) :
    (op.perform a).QuietAt m w := by
  cases hp : op.provider? with
  | none => exact (inward_perform h hp).quietAt m w
  | some asked =>
    obtain ⟨provider, code⟩ := asked
    obtain ⟨rest, hrest, hperform⟩ := exists_perform_of_provider? (a := a) hp
    rw [hperform]
    exact (hq provider code hp code m w).bind fun p v _ => (hrest p).quietAt m v

end Operation

end AuthCore
