import AuthCore.Proofs.Account.Failure
import AuthCore.Proofs.Account.Faults
import AuthCore.Proofs.Cache.Entries

/-!
# Which faults of a memory cache are ever seen

A reader of the cache is prepared for an entry of the wrong kind, for a text that cannot be read,
and for an entry that does not fit its token. In memory none of this is ever seen: the cache holds
only what was put there in the right form (`AuthCore.Proofs.Cache.Entries`). The one fault that is
left is that the cache is full, and only the operations that put in something new without taking
something out before can meet it (`Operation.mayFill`).
-/

namespace AuthCore

open AuthCore.Frame

variable {m : Moment} {w : World} {c : MemoryCache}

/-! ### One-time codes -/

namespace Otp

variable {o : OtpConfig} {u : Username}

/-- Where only codes are held a guess is always compared. -/
theorem check_of_coded (h : c.Holds (Coded o)) (now : Nat) (guess : String) :
    ∃ r d, c.check now (key u) codeField guess retryField o.maxRetries = (.ok r, d) := by
  unfold MemoryCache.check
  split
  next => exact ⟨_, _, rfl⟩
  next text expiry hl =>
    obtain ⟨p, hp⟩ := h.of_live hl u rfl
    cases hp
  next fields expiry hl =>
    split
    next => exact ⟨_, _, rfl⟩
    next n hn =>
      split
      next => exact ⟨_, _, rfl⟩
      next => exact ⟨_, _, rfl⟩

/-- Checking a guess fails only because the code is wrong. -/
theorem fails_verify (hc : w.cache = .memory c) (h : c.Holds (Coded o)) (guess : String) :
    Answer.Fails (· = .auth .otpExpiredOrInvalid) ((verify o u guess).perform m w).1 := by
  obtain ⟨r, d, hx⟩ := check_of_coded (u := u) h m.now guess
  have hcheck : Cache.check (key u) codeField guess retryField o.maxRetries m.now w.cache =
      (.ok r, .memory d) := by
    rw [hc, Cache.check, hx]
    rfl
  rw [(perform_verify hcheck).1]
  split
  · exact Answer.fails_ok ()
  · exact Answer.fails_error rfl

theorem spares_verify (hc : w.cache = .memory c) (h : c.Holds (Coded o)) (guess : String) :
    Answer.Fails Error.SparesCache ((verify o u guess).perform m w).1 := by
  refine (fails_verify hc h guess).mono ?_
  rintro _ rfl
  exact Error.sparesCache_auth _

/-- Requesting a code fails only because one is live or the cache is full. -/
theorem fails_request (hc : w.cache = .memory c) (purpose : OtpPurpose)
    (greeted : Option String) :
    Answer.Fails (fun e => e = .auth .otpExists ∨ e = .cache (.full c.capacity))
      ((request o u purpose greeted).perform m w).1 := by
  have hx : w.cache.createHash (key u) [(codeField, code o m), (retryField, "0")]
      (seconds (window o)) m.now = Cache.ofMemory (c.createHash m.now (key u)
        [(codeField, code o m), (retryField, "0")] (seconds (window o))) := by
    rw [hc, Cache.createHash]
  rw [(perform_request purpose greeted hx).1]
  simp only [MemoryCache.createHash]
  split
  · split
    · exact Answer.fails_error (.inl rfl)
    · exact Answer.fails_ok ()
  · rw [MemoryCache.capacity_makeRoom]
    exact Answer.fails_error (.inr rfl)

end Otp

/-! ### Refresh tokens -/

namespace Tokens

variable {t : Tokens}

/-- Issuing a pair fails only because the cache is full. -/
theorem fails_issue (hc : w.cache = .memory c) (user : Int) (role : Role) (limited : Bool) :
    Answer.Fails (· = .cache (.full c.capacity)) ((t.issue user role limited).perform m w).1 := by
  cases hr : (c.makeRoom m.now (key (t.minted user m))).hasRoom (key (t.minted user m)) with
  | true =>
    rw [(t.issue_of_hasRoom user role limited hc hr).1]
    exact Answer.fails_ok _
  | false =>
    rw [(t.issue_of_full user role limited hc hr).1]
    exact Answer.fails_error rfl

/-- An ordinary reason for an exchange to fail: neither a fault of the cache nor an entry that does
not fit the token. -/
def Ordinary (e : Error) : Prop :=
  e.SparesCache ∧ e.auth? ≠ some .invalidTokenProvided

theorem ordinary_auth {r : AuthError} (h : r ≠ .invalidTokenProvided) : Ordinary (.auth r) :=
  ⟨Error.sparesCache_auth r, fun heq => h (Option.some.inj heq)⟩

/-- Once the entry of a token has turned out to fit, an exchange depends on the user only. -/
theorem fails_exchange {token entry : String} {id : Int} {expiry : Option Nat}
    (hc : w.cache = .memory c) (hw : c.Within)
    (hl : c.live? m.now (key token) = some ⟨.plain (entryText entry), expiry⟩) :
    Answer.Fails Ordinary ((t.exchange token entry id).perform m w).1 := by
  cases hu : w.store.findById id with
  | error e =>
    have hstore : e.isStore = true := w.store.fails_findById id e hu
    rw [exchange, Action.perform_bind, Action.perform_query, hu]
    refine Answer.fails_error ⟨Error.sparesCache_of_isStore hstore, ?_⟩
    simp [Error.auth?_of_isStore hstore]
  | ok o =>
    cases o with
    | none =>
      rw [exchange, Action.perform_bind, Action.perform_query, hu]
      exact Answer.fails_error (ordinary_auth (by simp))
    | some user =>
      rw [perform_exchange_of_found hu]
      split
      · exact Answer.fails_error (ordinary_auth (by simp))
      · rw [(renew_of_live user hc hw hl).1]
        exact Answer.fails_ok _

/-- Where an entry stands under the key of a token, it fits the token. -/
def Fit (t : Tokens) (k : String) (v : CacheValue) : Prop :=
  ∀ token, k = key token → ∃ user role, v = value user role ∧ RefreshToken.Fits user ∧
    RefreshToken.verify t.signer token = .ok user

/-- An entry that was noted fits its token, if the account has a number of 32 bits. -/
theorem fit_of_noted {a : Accounts} {records : List Record}
    (hfit : ∀ r ∈ records, ∀ user token, r.Issues a user token → RefreshToken.Fits user)
    {k : String} {v : CacheValue} (h : Noted a records k v) : a.tokens.Fit k v := by
  intro token hk
  obtain ⟨r, hr, user, role, hi, rfl⟩ := h token hk
  have hu : RefreshToken.Fits user := hfit r hr user token hi
  obtain ⟨-, -, -, rfl⟩ := hi
  exact ⟨user, role, rfl, hu,
    RefreshToken.verify_sign hu (RefreshToken.nonce_ne_empty _ _)⟩

/-- Where all entries fit, a token that fails to be exchanged has none, or its user may not go
on. -/
theorem fails_refresh (hc : w.cache = .memory c) (hw : c.Within) (h : c.Holds t.Fit)
    (token : String) : Answer.Fails Ordinary ((t.refresh token).perform m w).1 := by
  cases hl : c.live? m.now (key token) with
  | none =>
    have hg : (Cache.get Json.string? (key token) m.now w.cache).1 = .ok none := by
      simp only [hc, Cache.get, Cache.getText, Cache.ofMemory, MemoryCache.get, hl]
      rfl
    have hread : (Action.cached fun now => Cache.get Json.string? (key token) now).perform m w =
        (.ok none, { w with cache := (Cache.get Json.string? (key token) m.now w.cache).2 }) := by
      rw [Action.perform_cached, hg]
      rfl
    rw [refresh_eq, Action.perform_bind_ok hread]
    exact Answer.fails_error (ordinary_auth (by simp))
  | some e =>
    obtain ⟨v, expiry⟩ := e
    obtain ⟨user, role, rfl, hu, hv⟩ := h.of_live hl token rfl
    have hg : Cache.get Json.string? (key token) m.now w.cache =
        (.ok (some (entry user role)), w.cache) := by
      rw [hc]
      exact get_of_live hl
    rw [perform_refresh_of_fits hg hv (entryUser?_entry hu role)]
    exact fails_exchange hc hw hl

end Tokens

/-! ### Operations -/

/-- Nothing is wrong with a cache but that it may be full. -/
def MemoryCache.FullAtMost (c : MemoryCache) (e : Error) : Prop :=
  e.SparesCache ∨ e = .cache (.full c.capacity)

namespace Accounts

variable {a : Accounts}

theorem fails_request (hc : w.cache = .memory c) (name : Username) (purpose : OtpPurpose)
    (greeted : Option String) :
    Answer.Fails c.FullAtMost ((Otp.request a.otp name purpose greeted).perform m w).1 := by
  refine (Otp.fails_request hc purpose greeted).mono fun e he => ?_
  rcases he with rfl | rfl
  · exact .inl (Error.sparesCache_auth _)
  · exact .inr rfl

theorem fails_requestSignInCode (hc : w.cache = .memory c) (name : Username) :
    Answer.Fails c.FullAtMost ((a.requestSignInCode name).perform m w).1 := by
  refine Action.fails_perform_bind ?_ fun u v hu => ?_
  · exact (w.store.fails_findByUsername name none).mono fun _ h =>
      .inl (Error.sparesCache_of_isStore h)
  · obtain ⟨-, rfl⟩ := Action.query_eq_ok.1 hu
    exact fails_request hc name _ _

theorem fails_requestResetCode (hc : w.cache = .memory c) (name : Username) :
    Answer.Fails c.FullAtMost ((a.requestResetCode name).perform m w).1 := by
  refine Action.fails_perform_bind ?_ fun u v hu => ?_
  · exact (spares_needUser name m w).mono fun _ => .inl
  · obtain rfl := eq_of_needUser hu
    exact fails_request hc name _ _

theorem spares_verifyResetCode (hc : w.cache = .memory c) (hcoded : c.Holds (Otp.Coded a.otp))
    (name : Username) (guess : String) :
    Answer.Fails Error.SparesCache ((a.verifyResetCode name guess).perform m w).1 := by
  refine Action.fails_perform_bind (spares_needUser name m w) fun u v hu => ?_
  obtain rfl := eq_of_needUser hu
  refine Action.fails_perform_bind (Otp.spares_verify hc hcoded guess) fun _ v _ => ?_
  exact Tokens.spares_issueLimited _ _ m v

end Accounts

namespace Operation

/-- Whether an operation may put an entry into the cache without having taken one out. -/
def mayFill : Operation → Bool
  | signInWithPassword .. | signInWithProfile .. | signInWithProvider .. | requestSignInCode _
  | requestResetCode _ | issue .. | requestCode .. => true
  | changePassword _ _ _ limited => limited
  | _ => false

/-- The identity provider of an operation, if it has one, does not fail because of the cache. -/
def ProviderSpares (op : Operation) : Prop :=
  ∀ provider code, op = signInWithProvider provider code → provider.SparesCache

/-- An error that an operation may answer: no fault of the cache, or that it is full where something
new was to be put in. -/
def Tolerates (op : Operation) (e : Error) : Prop :=
  e.SparesCache ∨ (∃ n, e = .cache (.full n)) ∧ op.mayFill = true

variable {a : Accounts} {op : Operation} {x : Action (User × UserChanges)}

/-- Who signs in without a one-time code takes nothing out of the cache. -/
theorem mayFill_of_entrant (h : op.entrant? a = some x) (hname : op.codeName? = none) :
    op.mayFill = true := by
  cases op
  case signInWithCode => cases hname
  case verifyCode => cases hname
  case changePassword u old new limited =>
    cases limited with
    | false => cases h
    | true => rfl
  all_goals first | rfl | cases h

/-- Finding out who comes does not fail because of the cache. -/
theorem spares_entrant (h : op.entrant? a = some x) (hp : op.ProviderSpares)
    (hc : w.cache = .memory c) (hcoded : c.Holds (Otp.Coded a.otp)) :
    Answer.Fails Error.SparesCache (x.perform m w).1 := by
  cases op
  case signInWithPassword name password roles =>
    cases h
    exact Accounts.spares_passwordEntrant name password roles m w
  case signInWithCode name code =>
    cases h
    refine Action.fails_perform_bind (Otp.spares_verify hc hcoded code) fun _ v _ => ?_
    exact ((Accounts.spares_findOrRegister name).bind fun _ => Action.fails_pure _) m v
  case signInWithProfile p =>
    cases h
    exact Accounts.spares_profileEntrant p m w
  case signInWithProvider provider code =>
    cases h
    exact Accounts.spares_providerEntrant (hp provider code rfl) code m w
  case changePassword u old new limited =>
    cases limited with
    | false => cases h
    | true =>
      cases h
      exact Accounts.spares_resetEntrant u new m w
  case verifyCode name code =>
    cases h
    refine Action.fails_perform_bind (Accounts.spares_needUser name m w) fun u v hu => ?_
    obtain rfl := Accounts.eq_of_needUser hu
    refine Action.fails_perform_bind (Otp.spares_verify hc hcoded code) fun _ v _ => ?_
    exact Action.fails_pure _ m v
  all_goals cases h

/-- A full sign-in that fails because of the cache has found it full, and brought no one-time
code. -/
theorem fails_of_entrant (h : op.entrant? a = some x) (hp : op.ProviderSpares)
    (hc : w.cache = .memory c) (hw : c.Within) (hcoded : c.Holds (Otp.Coded a.otp)) :
    Answer.Fails op.Tolerates ((op.perform a).perform m w).1 := by
  intro e he
  cases hadmits : op.admits? a m w with
  | some id =>
    obtain ⟨hfull, hname⟩ := Accounts.full_of_admitted hc hw hadmits he
    exact .inr ⟨hfull, mayFill_of_entrant h hname⟩
  | none =>
    have hx : Answer.Fails Error.SparesCache (x.perform m w).1 := spares_entrant h hp hc hcoded
    simp only [admits?, h] at hadmits
    rw [perform_of_entrant h, Action.perform_map] at he
    rcases hxw : x.perform m w with ⟨e' | ⟨u, extra⟩, v⟩ <;> rw [hxw] at hadmits hx
    · rw [Action.perform_bind_error hxw] at he
      cases he
      exact .inl (hx e rfl)
    · dsimp only at hadmits
      rcases hu : v.store.updateUser u.id (Accounts.signInChanges u extra m) with ⟨e' | u', s⟩ <;>
        rw [hu] at hadmits
      · rw [Action.perform_bind_ok hxw, Accounts.perform_complete_of_error hu] at he
        cases he
        have hr := v.store.fails_updateUser u.id (Accounts.signInChanges u extra m) e
        rw [hu] at hr
        exact .inl (hr rfl).sparesCache
      · cases hadmits

/-- Where only codes and entries that fit are held, no operation fails because of the cache, but
that it may be full. -/
theorem fails_perform (hp : op.ProviderSpares) (hc : w.cache = .memory c) (hw : c.Within)
    (hfit : c.Holds a.tokens.Fit) (hcoded : c.Holds (Otp.Coded a.otp)) :
    Answer.Fails op.Tolerates ((op.perform a).perform m w).1 := by
  have hspares {α : Type} {x : Action α} (hx : Answer.Fails Error.SparesCache (x.perform m w).1)
      (f : α → Result) : Answer.Fails op.Tolerates ((f <$> x).perform m w).1 := by
    rw [Action.perform_map]
    exact (hx.map f).mono fun _ => .inl
  have hfull (hop : op.mayFill = true) {α : Type} {x : Action α}
      (hx : Answer.Fails c.FullAtMost (x.perform m w).1) (f : α → Result) :
      Answer.Fails op.Tolerates ((f <$> x).perform m w).1 := by
    rw [Action.perform_map]
    exact (hx.map f).mono fun e he => he.imp_right fun he => ⟨⟨_, he⟩, hop⟩
  cases hx : op.entrant? a with
  | some x => exact fails_of_entrant hx hp hc hw hcoded
  | none =>
    cases op
    case signOut actor target => exact hspares (Accounts.spares_signOut actor target m w) _
    case changePassword u old new limited =>
      cases limited with
      | true => cases hx
      | false => exact hspares (Accounts.spares_changePassword u old new m w) _
    case requestSignInCode name => exact hfull rfl (Accounts.fails_requestSignInCode hc name) _
    case requestResetCode name => exact hfull rfl (Accounts.fails_requestResetCode hc name) _
    case verifyResetCode name guess =>
      exact hspares (Accounts.spares_verifyResetCode hc hcoded name guess) _
    case authenticate token => exact hspares (Accounts.spares_authenticate token m w) _
    case authenticateLimited token =>
      exact hspares (Accounts.spares_authenticateLimited token m w) _
    case effective u => exact hspares (Permissions.spares_effective u m w) _
    case authorize u scope => exact hspares (Permissions.spares_check u scope m w) _
    case authorizeStaff u scope => exact hspares (Accounts.spares_authorizeStaff u scope m w) _
    case issue user role limited =>
      exact hfull rfl ((Tokens.fails_issue hc user role limited).mono fun _ => .inr) _
    case issueLimited user role => exact hspares (Tokens.spares_issueLimited user role m w) _
    case verifyToken token => exact hspares (Tokens.spares_verify token m w) _
    case refresh token =>
      exact hspares ((Tokens.fails_refresh hc hw hfit token).mono fun _ => And.left) _
    case requestCode name purpose greeted =>
      exact hfull rfl (Accounts.fails_request hc name purpose greeted) _
    case checkCode name guess => exact hspares (Otp.spares_verify hc hcoded guess) _
    case createGroup g => exact hspares (Groups.spares_create g m w) _
    case updateGroup name u => exact hspares (Groups.spares_update name u m w) _
    case deleteGroups names => exact hspares (Groups.spares_delete names m w) _
    all_goals cases hx

end Operation

/-! ### Runs -/

namespace Accounts

variable {entries : Nat}

/-- Wherever a run has led that began with an empty memory cache, whatever lies in the cache, live
or not, is of use. The entry of a refresh token is the number and the role of an account, and the
token verifies as a token of that account. The entry of a one-time code has a code and a counter,
and the counter is not negative and not above the limit. So an exchange never finds fault with the
cache or with the token, checking a code never finds fault with the cache, and the only fault of the
cache that any operation answers is that it is full, where something new was to be put in. Accounts
have numbers of 32 bits, and an identity provider does not answer a fault of the cache by itself,
which holds of both providers of the program. -/
theorem faults_of_cache (a : Accounts) (hw : w.cache = .memory (.new entries)) (steps : List Step)
    (hfit : ∀ r ∈ a.trace w steps, ∀ user token, r.Issues a user token →
      RefreshToken.Fits user) :
    let v := a.after w steps
    (∃ c, v.cache = .memory c ∧
      (∀ token e, c.entries.get? (CacheKey.refresh token).text = some e → ∃ user role,
        e.value = .plain (Tokens.entryText (Tokens.entry user role)) ∧
        RefreshToken.verify a.tokens.signer token = .ok user) ∧
      (∀ name e, c.entries.get? (CacheKey.otp name).text = some e → ∃ code n,
        e.value = .hash (.ofList [(Otp.codeField, code), (Otp.retryField, Text.showInt n)]) ∧
        0 ≤ n ∧ n ≤ max a.otp.maxRetries 0)) ∧
    (∀ m token e, ((a.tokens.refresh token).perform m v).1 = .error e →
      e.cacheFault? = none ∧ e.auth? ≠ some .invalidTokenProvided) ∧
    (∀ m name guess e, ((Otp.verify a.otp name guess).perform m v).1 = .error e →
      e.cacheFault? = none) ∧
    (∀ s : Step, s.operation.ProviderSpares → ∀ e f, (a.step s v).1 = .error e →
      e.cacheFault? = some f → (∃ n, e = .cache (.full n)) ∧ s.operation.mayFill = true) ∧
    (∀ c, (OuterProvider.google c).SparesCache) ∧ ∀ c, (OuterProvider.facebook c).SparesCache := by
  intro v
  obtain ⟨c, hc, hcw, hnoted, hcoded⟩ := holds_after (a := a) hw steps
  have hfits : c.Holds a.tokens.Fit := hnoted.mono fun _ _ => Tokens.fit_of_noted hfit
  refine ⟨⟨c, hc, fun token e he => ?_, fun name e he => ?_⟩, fun m token e he => ?_,
    fun m name guess e he => ?_, fun s hs e f he hf => ?_, OuterProvider.sparesCache_google,
    OuterProvider.sparesCache_facebook⟩
  · obtain ⟨user, role, hvalue, -, hverify⟩ := hfits _ e he token rfl
    exact ⟨user, role, hvalue, hverify⟩
  · obtain ⟨p, hp⟩ := hcoded _ e he (.phone name) rfl
    refine ⟨p.code, Otp.counted a.otp p.wrong, hp, ?_, ?_⟩
    all_goals
      unfold Otp.counted
      omega
  · exact Tokens.fails_refresh hc hcw hfits token e he
  · exact Otp.spares_verify hc hcoded guess e he
  · rcases Operation.fails_perform hs hc hcw hfits hcoded e he with hspares | hfull
    · rw [hspares] at hf
      cases hf
    · exact hfull

/-- A pair for an account with a negative number takes the only place of a cache. -/
theorem faults_of_cache_negative :
    let a : Accounts := ⟨⟨⟨"secret", .hs256⟩, 60, 120⟩, {}, 4, 16⟩
    let d : Draws := ⟨id, id, id, id⟩
    let w := Action.worldOf (.memory (.new 1)) (.memory .empty) .log
    let first : Step := ⟨0, d, .issue (-5) .customer false⟩
    let token := a.tokens.minted (-5) first.moment
    RefreshToken.verify a.tokens.signer token = .ok (-5) ∧
      ∀ m e, ((a.tokens.refresh token).perform m (a.after w [first])).1 = .error e →
        e.cacheFault? = none ∧ e.auth? ≠ some .invalidTokenProvided := by
  intro a d w first token
  obtain ⟨hanswer, hcache⟩ :=
    a.tokens.issue_of_hasRoom (m := first.moment) (w := w) (-5) .customer false rfl rfl
  have hfirst : (a.record first w).pair? =
      some (a.tokens.pair (-5) .customer false first.moment) := by
    show answeredPair? ((Result.pair <$> a.tokens.issue (-5) .customer false).perform _ w).1 = _
    rw [Action.perform_map, hanswer]
    rfl
  have hmine : (a.record first w).Issues a (-5) token := ⟨.customer, false, hfirst, rfl⟩
  have hfit : ∀ r ∈ a.trace w [first], ∀ user token, r.Issues a user token →
      RefreshToken.Fits user := by
    intro r hr user token' hi
    obtain rfl := List.mem_singleton.1 hr
    have ht : token' = token := Option.some.inj (hi.minted?_eq.symm.trans hmine.minted?_eq)
    obtain ⟨-, -, -, ht'⟩ := hi
    obtain rfl : user = -5 := RefreshToken.sign_injective (ht'.symm.trans ht)
    decide
  obtain ⟨⟨c, hc, hentries, -⟩, hrefresh, -⟩ := a.faults_of_cache rfl [first] hfit
  obtain rfl := Cache.memory.inj (hc.symm.trans hcache)
  obtain ⟨user, -, -, hverify⟩ := hentries token _ (OrderedMap.get?_insert_self _ _ _)
  have huser : user = -5 := RefreshToken.eq_of_verify_sign (RefreshToken.nonce_ne_empty _ _) hverify
  exact ⟨huser ▸ hverify, fun m e => hrefresh m token e⟩

end Accounts

end AuthCore
