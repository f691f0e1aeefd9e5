import AuthCore.Proofs.Account.Users
import AuthCore.Proofs.Store.Faults

/-!
# Failures that are not the cache's

An operation may fail with a domain error, because of the store, while a password is hashed, or on
the way to an identity provider. None of this is a fault of the cache (`Error.SparesCache`). Which
errors an action may answer is told by a predicate that passes through its steps (`Action.Fails`),
so here are the parts of the operations that do not use the cache, one chain of steps each. With the
end of a full sign-in it is the other way round: nothing but the cache makes it fail.
-/

namespace AuthCore

variable {α β : Type} {E : Error → Prop}

/-! ### Errors -/

namespace Error

/-- The fault of a cache inside an error, if there is one. -/
def cacheFault? : Error → Option CacheFault
  | cache f => some f
  | context _ inner => inner.cacheFault?
  | _ => none

/-- An error has nothing to do with a cache. -/
def SparesCache (e : Error) : Prop := e.cacheFault? = none

theorem sparesCache_auth (r : AuthError) : (auth r).SparesCache := rfl

theorem sparesCache_of_isStore {e : Error} (h : e.isStore = true) : e.SparesCache := by
  cases e <;> first | rfl | cases h

theorem IsRefusal.sparesCache {e : Error} (h : e.IsRefusal) : e.SparesCache := by
  rcases h with h | ⟨r, rfl⟩
  · exact sparesCache_of_isStore h
  · exact sparesCache_auth r

end Error

/-! ### Actions -/

namespace Action

variable {x : Action α} {f : α → Action β} {m : Moment} {w : World}

/-- If an action fails, then with an error of a class. -/
def Fails (E : Error → Prop) (x : Action α) : Prop := ∀ m w, Answer.Fails E (x.perform m w).1

/-- A composed action fails where its first part does or, if that succeeds, where the second one
does. -/
theorem fails_perform_bind (hx : Answer.Fails E (x.perform m w).1)
    (hf : ∀ a v, x.perform m w = (.ok a, v) → Answer.Fails E ((f a).perform m v).1) :
    Answer.Fails E ((x >>= f).perform m w).1 := by
  rw [perform_bind]
  rcases hxw : x.perform m w with ⟨e | a, v⟩
  · rw [hxw] at hx
    exact Answer.fails_error (hx e rfl)
  · exact hf a v hxw

namespace Fails

theorem bind (hx : x.Fails E) (hf : ∀ a, (f a).Fails E) : (x >>= f).Fails E :=
  fun m w => fails_perform_bind (hx m w) fun a v _ => hf a m v

theorem map (hx : x.Fails E) (f : α → β) : (f <$> x).Fails E := by
  intro m w
  rw [perform_map]
  exact (hx m w).map f

theorem ite {c : Prop} [Decidable c] {y : Action α} (hx : x.Fails E) (hy : y.Fails E) :
    (if c then x else y).Fails E := by
  split
  · exact hx
  · exact hy

end Fails

theorem fails_pure (a : α) : (pure a : Action α).Fails E := fun _ _ => Answer.fails_ok a

theorem fails_read : (read : Action Moment).Fails E := fun m _ => Answer.fails_ok m

theorem fails_log (e : Event) : (log e).Fails E := fun _ _ => Answer.fails_ok ()

theorem fails_throw {e : Error} (h : E e) : (throw e : Action α).Fails E :=
  fun _ _ => Answer.fails_error h

theorem fails_forM {f : β → Action PUnit} (h : ∀ b, (f b).Fails E) (bs : List β) :
    (bs.forM f).Fails E := by
  induction bs with
  | nil => exact fails_pure _
  | cons b bs ih => exact (h b).bind fun _ => ih

theorem fails_fetch (h : E (.network .failed)) (r : Request) : (fetch r).Fails E := by
  have hsend : (send r).Fails E := fun _ _ => Answer.fails_ok _
  refine Fails.ite (hsend.bind fun o => ?_) (fails_throw h)
  cases o with
  | some a => exact fails_pure a
  | none => exact fails_throw h

theorem fails_query {g : Store → Answer α} (h : ∀ s, Answer.Fails E (g s)) : (query g).Fails E :=
  fun _ w => h w.store

theorem fails_change {g : Store → Answer α × Store} (h : ∀ s, Answer.Fails E (g s).1) :
    (change g).Fails E :=
  fun _ w => h w.store

/-- To put a text into the cache fails because of the cache. -/
theorem fails_cacheSet (key text : String) (ttl : Option Nat) :
    (cacheSet key text ttl).Fails fun e => ∃ f, e = .cache f := by
  intro m w e he
  rw [perform_cacheSet] at he
  cases hr : (w.cache.set key text ttl m.now).1 with
  | ok _ =>
    rw [hr] at he
    cases he
  | error f =>
    rw [hr] at he
    exact ⟨f, (Except.error.inj he).symm⟩

/-! ### Actions that spare the cache -/

/-- An action does not fail because of the cache. -/
def SparesCache (x : Action α) : Prop := x.Fails Error.SparesCache

theorem spares_reject (r : AuthError) : (reject r : Action α).SparesCache :=
  fails_throw (Error.sparesCache_auth r)

theorem spares_require (b : Bool) (r : AuthError) : (require b r).SparesCache := by
  cases b with
  | true => exact fails_pure ()
  | false => exact spares_reject r

theorem spares_orReject (r : AuthError) (o : Option α) : (orReject r o).SparesCache := by
  cases o with
  | some a => exact fails_pure a
  | none => exact spares_reject r

theorem spares_query {g : Store → Answer α} (h : ∀ s, Answer.Fails (·.isStore = true) (g s)) :
    (query g).SparesCache :=
  fails_query fun s => (h s).mono fun _ => Error.sparesCache_of_isStore

theorem spares_change {g : Store → Answer α × Store}
    (h : ∀ s, Answer.Fails Error.IsRefusal (g s).1) : (change g).SparesCache :=
  fails_change fun s => (h s).mono fun _ => Error.IsRefusal.sparesCache

theorem spares_fetch (r : Request) : (fetch r).SparesCache :=
  fails_fetch (E := Error.SparesCache) rfl r

end Action

open AuthCore.Action

/-! ### Permissions, groups, access tokens -/

namespace Permissions

theorem spares_effective (u : User) : (effective u).SparesCache :=
  (fails_pure _).ite <| (spares_query fun s => s.fails_findGroups _).bind fun _ =>
    (fails_forM (fun _ => fails_log _) _).bind fun _ => fails_pure _

theorem spares_check (u : User) (scope : Option Scope) : (check u scope).SparesCache := by
  unfold check
  cases scope with
  | none => exact fails_pure ()
  | some s =>
    exact (spares_effective u).bind fun _ => (fails_pure ()).ite <|
      (fails_log _).bind fun _ => spares_reject _

theorem spares_validate (ps : List Permission) : (validate ps).SparesCache :=
  fails_forM (fun _ => (spares_query fun s => s.fails_findEntity _).bind fun e =>
    (spares_orReject _ e).bind fun _ => spares_require _ _) ps

end Permissions

namespace Groups

theorem spares_create (g : Group) : (create g).SparesCache :=
  (Permissions.spares_validate _).bind fun _ => (spares_change fun s => s.fails_createGroup g).bind
    fun _ => (fails_log _).bind fun _ => fails_pure _

theorem spares_update (name : String) (u : GroupUpdate) : (update name u).SparesCache := by
  have hrest (_ : PUnit) : Action.SparesCache (do
      let g ← Action.change (·.updateGroup name u)
      Action.log (.groupUpdated name)
      return g) :=
    (spares_change fun s => s.fails_updateGroup name u).bind fun _ => (fails_log _).bind fun _ =>
      fails_pure _
  unfold update
  cases u.permissions with
  | some ps => exact (Permissions.spares_validate ps).bind hrest
  | none => exact (fails_pure ()).bind hrest

theorem spares_delete (names : List String) : (delete names).SparesCache :=
  (spares_query fun s => s.fails_countUsers names).bind fun _ =>
    (spares_change fun s => s.fails_deleteGroups _).bind fun _ => (fails_log _).bind fun _ =>
      (fails_pure _).ite (spares_reject _)

end Groups

namespace Tokens

variable {t : Tokens}

theorem spares_verify (token : String) : (t.verify token).SparesCache := by
  refine fails_read.bind fun m => fun _ _ => ?_
  rw [perform_ofAnswer]
  cases AccessToken.verify t.signer m.second token with
  | error r => exact Answer.fails_error (Error.sparesCache_auth r)
  | ok c => exact Answer.fails_ok c

theorem spares_issueLimited (user : Int) (role : Role) : (t.issueLimited user role).SparesCache :=
  fails_read.bind fun _ => fails_pure _

end Tokens

/-! ### Identity providers -/

/-- Asking a provider for the profile behind a code does not fail because of the cache. -/
def OuterProvider.SparesCache (provider : OuterProvider) : Prop :=
  ∀ code, (provider.exchangeCode code).SparesCache

namespace OuterProvider

theorem spares_address (url : String) : (IdentityProvider.address url).SparesCache :=
  (fails_pure url).ite (fails_throw rfl)

theorem spares_fetch (name : String) (f : Json → Option α) (r : Request) :
    (IdentityProvider.fetch name f r).SparesCache := by
  refine (Action.spares_fetch r).bind fun response => ?_
  split
  · split
    · exact fails_pure _
    · exact fails_throw rfl
  · exact fails_throw rfl

theorem sparesCache_google (c : GoogleConfig) : (google c).SparesCache := fun _ =>
  (spares_address _).bind fun _ => (spares_fetch _ _ _).bind fun _ => (fails_log _).bind fun _ =>
    (spares_address _).bind fun _ => (spares_fetch _ _ _).bind fun _ => fails_pure _

theorem sparesCache_facebook (c : FacebookConfig) : (facebook c).SparesCache := fun _ =>
  (spares_address _).bind fun _ => (spares_fetch _ _ _).bind fun _ =>
    (spares_address _).bind fun _ => (spares_fetch _ _ _).bind fun _ => fails_pure _

end OuterProvider

/-! ### Parts of the flows -/

namespace Accounts

variable {a : Accounts}

theorem spares_hashPassword (password : String) : (a.hashPassword password).SparesCache := by
  refine fails_read.bind fun m => fun _ _ => ?_
  rw [perform_ofAnswer]
  cases Password.hash a.hashCost m.salt password with
  | error f => exact Answer.fails_error rfl
  | ok hash => exact Answer.fails_ok hash

theorem spares_needUser (name : Username) : (needUser name).SparesCache :=
  (spares_query fun s => s.fails_findByUsername name none).bind fun u => spares_orReject _ u

theorem spares_needUserById (id : Int) : (needUserById id).SparesCache :=
  (spares_query fun s => s.fails_findById id).bind fun u => spares_orReject _ u

theorem spares_needActiveUser (id : Int) : (needActiveUser id).SparesCache := by
  refine (spares_needUserById id).bind fun u => ?_
  cases inactive? u with
  | some r => exact spares_reject r
  | none => exact fails_pure u

theorem spares_authenticate (token : String) : (a.authenticate token).SparesCache :=
  (Tokens.spares_verify token).bind fun _ => (spares_require _ _).bind fun _ =>
    spares_needActiveUser _

theorem spares_authenticateLimited (token : String) :
    (a.authenticateLimited token).SparesCache := by
  refine (Tokens.spares_verify token).bind fun c => Fails.ite ?_ ?_
  · exact (spares_needActiveUser _).bind fun _ => fails_pure _
  · exact (spares_needUserById _).bind fun _ => (spares_require _ _).bind fun _ =>
      (spares_require _ _).bind fun _ => fails_pure _

theorem spares_authorizeStaff (u : User) (scope : Option Scope) :
    (authorizeStaff u scope).SparesCache :=
  (spares_require _ _).bind fun _ => Permissions.spares_check u scope

theorem spares_signOut (actor : User) (target : Option Int) :
    (signOut actor target).SparesCache :=
  (spares_require _ _).bind fun _ => (spares_change fun s => s.fails_updateUser _ _).bind fun _ =>
    (fails_log _).bind fun _ => fails_pure _

theorem spares_changePassword (u : User) (old : Option String) (new : String) :
    (a.changePassword u old new false).SparesCache := by
  rw [changePassword_full]
  refine Fails.bind ?_ fun _ => (spares_hashPassword new).bind fun _ =>
    (spares_change fun s => s.fails_updateUser _ _).bind fun _ => (fails_log _).bind fun _ =>
      fails_pure _
  exact (spares_orReject _ old).bind fun _ => spares_require _ _

/-! ### Who comes -/

theorem spares_findOrRegister (name : Username) : (findOrRegister name).SparesCache := by
  refine (spares_query fun s => s.fails_findByUsername name none).bind fun u => ?_
  cases u with
  | some u =>
    exact (spares_require _ _).bind fun _ => (spares_require _ _).bind fun _ => fails_pure u
  | none =>
    exact (spares_change fun s => s.fails_createUser _).bind fun u => (fails_log _).bind fun _ =>
      fails_pure u

theorem spares_findOrCreate (p : SocialProfile) (email : String) :
    (a.findOrCreate p email).SparesCache := by
  refine (spares_query fun s => s.fails_findByEmail email).bind fun u => ?_
  cases u with
  | some u => exact fails_pure u
  | none =>
    exact fails_read.bind fun _ => (spares_hashPassword _).bind fun _ =>
      spares_change fun s => s.fails_createUser _

theorem spares_passwordEntrant (name : Username) (password : String)
    (roles : Option (List Role)) : (passwordEntrant name password roles).SparesCache := by
  refine (spares_query fun s => s.fails_findByUsername name roles).bind fun o => ?_
  refine (spares_orReject _ o).bind fun u => Fails.ite ?_ ?_
  · exact (fails_log _).bind fun _ => spares_reject _
  · refine (spares_require _ _).bind fun _ => ?_
    cases unverified? name u with
    | some r => exact spares_reject r
    | none => exact fails_pure _

theorem spares_profileEntrant (p : SocialProfile) : (a.profileEntrant p).SparesCache := by
  refine (spares_orReject _ _).bind fun email => (spares_findOrCreate p email).bind fun u => ?_
  refine (spares_require _ _).bind fun _ => (spares_require _ _).bind fun _ => ?_
  cases inReview? u with
  | some r => exact spares_reject r
  | none => exact fails_pure _

theorem spares_providerEntrant {provider : OuterProvider} (h : provider.SparesCache)
    (code : String) : (a.providerEntrant provider.toIdentityProvider code).SparesCache :=
  (h code).bind fun p => (fails_log _).bind fun _ => spares_profileEntrant p

theorem spares_resetEntrant (u : User) (new : String) : (a.resetEntrant u new).SparesCache :=
  (spares_hashPassword new).bind fun _ => fails_pure _

/-- The end of a full sign-in fails because of the cache. -/
theorem fails_welcome (u : User) : (a.welcome u).Fails fun e => ∃ f, e = .cache f := by
  have hissue : (a.tokens.issue u.id u.role false).Fails fun e => ∃ f, e = .cache f :=
    fails_read.bind fun _ => (fails_cacheSet _ _ _).bind fun _ => (fails_log _).bind fun _ =>
      fails_pure _
  exact hissue.bind fun _ => (fails_log _).bind fun _ => fails_pure _

end Accounts

end AuthCore
