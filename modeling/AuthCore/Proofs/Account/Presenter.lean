import AuthCore.Proofs.Account.Limited

/-!
# Who presents an access token

What the two ways of finding out who presents an access token answer, for every store and every
text. A token that verifies says only whose it is and whether it is limited. Everything else is
read from the stored user: the objections to it are listed in the order in which they are told, and
the answer is the first of them, or the user as it is stored.
-/

namespace AuthCore

namespace User

/-- What keeps a user from being let in, whatever token is presented. -/
def bans (u : User) : List AuthError :=
  (if u.isEnable then [] else [.userIsDisabled]) ++ if u.isBlocked then [.userIsBlocked] else []

/-- The channels that a user has not proved to own. -/
def unproved (u : User) : List AuthError :=
  (if u.emailVerified then [] else u.email.toList.map .emailNotVerified)
    ++ if u.phoneVerified then [] else u.mobileNumber.toList.map .phoneNotVerified

/-- What keeps a user from being let in with a token that is not limited. -/
def objections (u : User) : List AuthError :=
  (if u.isForceLogin then [.userForceLogin] else []) ++ u.bans ++ u.unproved

theorem head?_objections (u : User) : u.objections.head? = Accounts.inactive? u := by
  unfold objections bans unproved Accounts.inactive?
  cases u.isForceLogin
  case true => rfl
  case false =>
    cases u.isEnable
    case false => rfl
    case true =>
      cases u.isBlocked
      case true => rfl
      case false =>
        cases u.emailVerified <;> cases u.email <;> cases u.phoneVerified <;>
          cases u.mobileNumber <;> rfl

end User

/-- The first of some objections, or a value if there is none. -/
def firstOr {α : Type} (objections : List AuthError) (answer : α) : Answer α :=
  match objections.head? with
  | some e => .error (.auth e)
  | none => .ok answer

/-- What a store says about the user with a number, who has to exist. -/
def Store.need (s : Store) (id : Int) : Answer User := do
  match ← s.findById id with
  | some u => .ok u
  | none => .error (.auth .userNotFound)

namespace Accounts

variable {a : Accounts} {m m' : Moment} {w w' : World} {token token' : String}
  {p p' : AccessClaims} {u : User}

theorem perform_needUserById (id : Int) :
    (needUserById id).perform m w = (w.store.need id, w) := by
  rw [needUserById, Action.perform_bind, Action.perform_query, Store.need]
  rcases w.store.findById id with e | _ | u <;> rfl

theorem perform_needActiveUser (id : Int) :
    (needActiveUser id).perform m w =
      ((w.store.need id).bind fun u => firstOr u.objections u, w) := by
  rw [needActiveUser, Action.perform_bind, perform_needUserById]
  cases w.store.need id with
  | error e => rfl
  | ok u =>
    simp only [firstOr, User.head?_objections, Except.bind]
    cases inactive? u <;> rfl

/-- What a token that verifies is answered where it may not be limited. -/
theorem perform_authenticate_of_verify
    (hv : AccessToken.verify a.tokens.signer m.second token = .ok p) :
    (a.authenticate token).perform m w =
      (if p.limited then .error (.auth .limitedToken)
        else (w.store.need p.userId).bind fun u => firstOr u.objections u, w) := by
  rw [authenticate, Action.perform_bind_ok (perform_verify_of_ok hv)]
  cases hl : p.limited with
  | true => rfl
  | false =>
    have hr : (Action.require (!false) .limitedToken).perform m w = (.ok (), w) := rfl
    rw [Action.perform_bind_ok hr, perform_needActiveUser]
    rfl

/-- What a token that verifies is answered where it may be limited. -/
theorem perform_authenticateLimited_of_verify
    (hv : AccessToken.verify a.tokens.signer m.second token = .ok p) :
    (a.authenticateLimited token).perform m w =
      (if p.limited then (w.store.need p.userId).bind fun u => firstOr u.bans (u, true)
        else ((w.store.need p.userId).bind fun u => firstOr u.objections u).map (·, false), w) := by
  rw [authenticateLimited, Action.perform_bind_ok (perform_verify_of_ok hv)]
  cases hl : p.limited with
  | true =>
    show Action.perform (needUserById p.userId >>= _) m w = _
    rw [Action.perform_bind, perform_needUserById]
    cases w.store.need p.userId with
    | error e => rfl
    | ok u =>
      simp only [requireEnabled, requireUnblocked, User.bans, firstOr, Except.bind]
      cases u.isEnable <;> cases u.isBlocked <;> rfl
  | false =>
    show Action.perform (needActiveUser p.userId >>= _) m w = _
    rw [Action.perform_bind, perform_needActiveUser]
    rcases (w.store.need p.userId).bind fun u => firstOr u.objections u with e | u <;> rfl

theorem perform_verify_of_error {e : AuthError}
    (h : AccessToken.verify a.tokens.signer m.second token = .error e) :
    (a.tokens.verify token).perform m w = (.error (.auth e), w) := by
  rw [Tokens.verify, Action.perform_bind_ok Action.perform_read, Action.perform_ofAnswer, h]
  rfl

theorem need_eq_ok {s : Store} {id : Int} : s.need id = .ok u ↔ s.findById id = .ok (some u) := by
  unfold Store.need
  rcases s.findById id with e | _ | v
  · exact ⟨nofun, nofun⟩
  · exact ⟨nofun, nofun⟩
  · show Except.ok v = Except.ok u ↔ _
    rw [Except.ok.injEq, Except.ok.injEq, Option.some.injEq]

theorem firstOr_eq_ok {α : Type} {objections : List AuthError} {b c : α}
    (h : firstOr objections b = .ok c) : b = c := by
  unfold firstOr at h
  split at h
  · cases h
  · exact Except.ok.inj h

/-- Whoever is answered after some objections is the user in the store. -/
theorem findById_of_bind_firstOr {α : Type} {s : Store} {id : Int}
    {objections : User → List AuthError} {f : User → α} {b : α}
    (h : ((s.need id).bind fun u => firstOr (objections u) (f u)) = .ok b) :
    ∃ u, s.findById id = .ok (some u) ∧ f u = b := by
  cases hneed : s.need id with
  | error e => rw [hneed] at h; cases h
  | ok u =>
    rw [hneed] at h
    exact ⟨u, need_eq_ok.1 hneed, firstOr_eq_ok h⟩

/-- What is answered where tokens may not be limited. -/
theorem perform_authenticate_eq (a : Accounts) (m : Moment) (w : World) (token : String) :
    (a.authenticate token).perform m w =
      (match AccessToken.verify a.tokens.signer m.second token with
        | .error e => .error (.auth e)
        | .ok p =>
          if p.limited then .error (.auth .limitedToken)
          else (w.store.need p.userId).bind fun u => firstOr u.objections u, w) := by
  cases hv : AccessToken.verify a.tokens.signer m.second token with
  | error e => rw [authenticate, Action.perform_bind_error (perform_verify_of_error hv)]
  | ok p => exact perform_authenticate_of_verify hv

/-- What is answered where they may be limited. -/
theorem perform_authenticateLimited_eq (a : Accounts) (m : Moment) (w : World) (token : String) :
    (a.authenticateLimited token).perform m w =
      (match AccessToken.verify a.tokens.signer m.second token with
        | .error e => .error (.auth e)
        | .ok p =>
          if p.limited then (w.store.need p.userId).bind fun u => firstOr u.bans (u, true)
          else ((a.authenticate token).perform m w).1.map (·, false), w) := by
  cases hv : AccessToken.verify a.tokens.signer m.second token with
  | error e => rw [authenticateLimited, Action.perform_bind_error (perform_verify_of_error hv)]
  | ok p =>
    rw [perform_authenticateLimited_of_verify hv, perform_authenticate_of_verify hv]
    dsimp only
    cases p.limited <;> rfl

/-- Of the token only its user and whether it is limited matter. -/
theorem authenticate_congr (hs : w'.store = w.store)
    (hv : AccessToken.verify a.tokens.signer m.second token = .ok p)
    (hv' : AccessToken.verify a.tokens.signer m'.second token' = .ok p')
    (hu : p.userId = p'.userId) (hl : p.limited = p'.limited) :
    ((a.authenticate token).perform m w).1 = ((a.authenticate token').perform m' w').1 ∧
      ((a.authenticateLimited token).perform m w).1 =
        ((a.authenticateLimited token').perform m' w').1 := by
  rw [perform_authenticate_of_verify hv, perform_authenticate_of_verify hv',
    perform_authenticateLimited_of_verify hv, perform_authenticateLimited_of_verify hv', hs, hu, hl]
  exact ⟨rfl, rfl⟩

/-- Whoever is let in is the stored user whom the token names. -/
theorem findById_of_authenticate (h : ((a.authenticate token).perform m w).1 = .ok u) :
    ∃ p, AccessToken.verify a.tokens.signer m.second token = .ok p ∧ p.limited = false ∧
      w.store.findById p.userId = .ok (some u) := by
  cases hv : AccessToken.verify a.tokens.signer m.second token with
  | error e =>
    rw [perform_authenticate_eq, hv] at h
    cases h
  | ok p =>
    rw [perform_authenticate_of_verify hv] at h
    cases hl : p.limited with
    | true =>
      rw [hl] at h
      cases h
    | false =>
      rw [hl] at h
      obtain ⟨_, hfound, rfl⟩ := findById_of_bind_firstOr h
      exact ⟨p, rfl, hl, hfound⟩

theorem findById_of_authenticateLimited {limited : Bool}
    (h : ((a.authenticateLimited token).perform m w).1 = .ok (u, limited)) :
    ∃ p, AccessToken.verify a.tokens.signer m.second token = .ok p ∧ p.limited = limited ∧
      w.store.findById p.userId = .ok (some u) := by
  cases hv : AccessToken.verify a.tokens.signer m.second token with
  | error e =>
    rw [perform_authenticateLimited_eq, hv] at h
    cases h
  | ok p =>
    cases hl : p.limited with
    | true =>
      rw [perform_authenticateLimited_of_verify hv, hl] at h
      obtain ⟨_, hfound, heq⟩ := findById_of_bind_firstOr h
      obtain ⟨rfl, rfl⟩ := Prod.mk.inj heq
      exact ⟨p, rfl, hl, hfound⟩
    | false =>
      rw [perform_authenticateLimited_eq, hv] at h
      simp only [hl, Bool.false_eq_true, if_false] at h
      obtain ⟨v, hv', heq⟩ := Answer.map_eq_ok.1 h
      obtain ⟨rfl, rfl⟩ := Prod.mk.inj heq
      obtain ⟨p', hp', -, hfound⟩ := findById_of_authenticate hv'
      rw [hv] at hp'
      obtain rfl := Except.ok.inj hp'
      exact ⟨p, rfl, hl, hfound⟩

/-- What is answered about a presenter, as a whole. Both operations read the token for its user and
for whether it is limited, and take all else from the store; they change nothing. -/
theorem authenticate_decision (a : Accounts) (m : Moment) (w : World) (token : String) :
    (a.authenticate token).perform m w =
        (match AccessToken.verify a.tokens.signer m.second token with
          | .error e => .error (.auth e)
          | .ok p =>
            if p.limited then .error (.auth .limitedToken)
            else (w.store.need p.userId).bind fun u => firstOr u.objections u, w) ∧
      (a.authenticateLimited token).perform m w =
        (match AccessToken.verify a.tokens.signer m.second token with
          | .error e => .error (.auth e)
          | .ok p =>
            if p.limited then (w.store.need p.userId).bind fun u => firstOr u.bans (u, true)
            else ((a.authenticate token).perform m w).1.map (·, false), w) ∧
      (∀ m' w' token' p p', w'.store = w.store →
        AccessToken.verify a.tokens.signer m.second token = .ok p →
        AccessToken.verify a.tokens.signer m'.second token' = .ok p' →
        p.userId = p'.userId → p.limited = p'.limited →
        ((a.authenticate token).perform m w).1 = ((a.authenticate token').perform m' w').1 ∧
          ((a.authenticateLimited token).perform m w).1 =
            ((a.authenticateLimited token').perform m' w').1) ∧
      ∀ u,
        (((a.authenticate token).perform m w).1 = .ok u →
          ∃ p, AccessToken.verify a.tokens.signer m.second token = .ok p ∧ p.limited = false ∧
            w.store.findById p.userId = .ok (some u)) ∧
        ∀ limited, ((a.authenticateLimited token).perform m w).1 = .ok (u, limited) →
          ∃ p, AccessToken.verify a.tokens.signer m.second token = .ok p ∧ p.limited = limited ∧
            w.store.findById p.userId = .ok (some u) :=
  ⟨perform_authenticate_eq a m w token, perform_authenticateLimited_eq a m w token,
    fun _ _ _ _ _ => authenticate_congr,
    fun _ => ⟨findById_of_authenticate, fun _ => findById_of_authenticateLimited⟩⟩

/-- Two tokens of one customer, one of which was signed for an administrator, five seconds later. -/
theorem authenticate_decision_roles :
    let a : Accounts := ⟨⟨⟨"secret", .hs256⟩, 60, 120⟩, {}, 4, 16⟩
    let u := (provedCustomer (.phone "+491234567")).toUser 1
    let w := Action.worldOf (.memory (.new 1)) (.memory (MemoryStore.empty.insertUser u)) .log
    let m := (Draws.mk id id id id).moment 0
    let m' := (Draws.mk id id id id).moment (seconds 5)
    let token := a.tokens.access 1 .customer false m
    let token' := a.tokens.access 1 .admin false m'
    ∃ p p', AccessToken.verify a.tokens.signer m.second token = .ok p ∧
      AccessToken.verify a.tokens.signer m'.second token' = .ok p' ∧
      p.role ≠ p'.role ∧ p.issuedAt ≠ p'.issuedAt ∧
      (a.authenticate token).perform m w = (.ok u, w) ∧
      ((a.authenticate token').perform m' w).1 = .ok u ∧
      ((a.authenticateLimited token').perform m' w).1 = .ok (u, false) := by
  intro a u w m m' token token'
  have hv : AccessToken.verify a.tokens.signer m.second token = .ok _ :=
    a.tokens.verify_access_self (by decide) (by decide)
  have hv' : AccessToken.verify a.tokens.signer m'.second token' = .ok _ :=
    a.tokens.verify_access_self (by decide) (by decide)
  obtain ⟨hfull, hlimited, hsame, -⟩ := authenticate_decision a m w token
  rw [hv] at hfull hlimited
  have hanswer : (a.authenticate token).perform m w = (.ok u, w) := hfull
  obtain ⟨hfull', hlimited'⟩ := hsame m' w token' _ _ rfl hv hv' rfl rfl
  refine ⟨_, _, hv, hv', by decide, by decide, hanswer, ?_, ?_⟩
  · rw [← hfull', hanswer]
  · rw [← hlimited', hlimited, hanswer]
    rfl

end Accounts

end AuthCore
