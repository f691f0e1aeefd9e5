import AuthCore.Account.SignIn
import AuthCore.Draws
import AuthCore.Permission.Management
import AuthCore.Proofs.Action
import Mathlib.Data.List.Induction

/-!
# Runs of operations

The operations of the services as data, and what happens when they are performed one after the
other: each reads the clock once and has random draws of its own. A run is recorded step by step, so
what can be said of a moment can be said of everything that was answered before it.

## The model

* `Operation`: one operation with its arguments; `Operation.perform` performs it.
* `Step`: an operation, when it happens, and what it draws.
* `Accounts.after`, `Accounts.trace`: the world after some steps, and the record of them.

An identity provider is anything that leaves the cache and the store alone; both providers of the
program are such (`OuterProvider.google`, `OuterProvider.facebook`).
-/

namespace AuthCore

/-- An identity provider that leaves the cache and the store alone. -/
structure OuterProvider extends IdentityProvider where
  /-- Asking for the profile behind a code has no effect on the cache and the store. -/
  keeps_exchangeCode : ∀ code, Frame.same.Keeps (exchangeCode code)

namespace OuterProvider

open AuthCore.Frame

theorem keeps_address {F : Frame} (url : String) : F.Keeps (IdentityProvider.address url) := by
  unfold IdentityProvider.address
  split
  · exact keeps_pure url
  · exact keeps_throw _

theorem keeps_fetch {F : Frame} {α : Type} (name : String) (f : Json → Option α) (r : Request) :
    F.Keeps (IdentityProvider.fetch name f r) := by
  unfold IdentityProvider.fetch
  refine (Frame.keeps_fetch r).bind fun response => ?_
  split
  · split
    · exact keeps_pure _
    · exact keeps_throw _
  · exact keeps_throw _

/-- Google as a provider. -/
def google (c : GoogleConfig) : OuterProvider where
  toIdentityProvider := Google.provider c
  keeps_exchangeCode _ :=
    (keeps_address _).bind fun _ => (keeps_fetch _ _ _).bind fun _ => (keeps_log _).bind fun _ =>
      (keeps_address _).bind fun _ => (keeps_fetch _ _ _).bind fun _ => keeps_pure _

/-- Facebook as a provider. -/
def facebook (c : FacebookConfig) : OuterProvider where
  toIdentityProvider := Facebook.provider c
  keeps_exchangeCode _ :=
    (keeps_address _).bind fun _ => (keeps_fetch _ _ _).bind fun _ =>
      (keeps_address _).bind fun _ => (keeps_fetch _ _ _).bind fun _ => keeps_pure _

end OuterProvider

/-- What an operation answers if it does not fail. -/
inductive Result where
  | done
  | pair (p : TokenPair)
  | token (text : String)
  | claims (c : AccessClaims)
  | flag (b : Bool)
  | user (u : User) (limited : Bool)
  | permissions (map : PermissionMap)
  | group (g : Group)
  | count (n : Nat)

namespace Result

/-- The answer to a change of the password. -/
def ofPair? : Option TokenPair → Result
  | some p => pair p
  | none => done

/-- The pair of tokens, if it is one. -/
def pair? : Result → Option TokenPair
  | pair p => some p
  | _ => none

end Result

/-- The pair of tokens that was answered, if one was. -/
def answeredPair? (r : Answer Result) : Option TokenPair := r.toOption.bind Result.pair?

/-- An operation with its arguments. -/
inductive Operation where
  | signInWithPassword (name : Username) (password : String) (roles : Option (List Role))
  | signInWithCode (name : Username) (code : String)
  | signInWithProfile (p : SocialProfile)
  | signInWithProvider (provider : OuterProvider) (code : String)
  | signOut (actor : User) (target : Option Int)
  | changePassword (u : User) (old : Option String) (new : String) (limited : Bool)
  | requestSignInCode (name : Username)
  | requestResetCode (name : Username)
  | verifyCode (name : Username) (code : String)
  | verifyResetCode (name : Username) (code : String)
  | authenticate (token : String)
  | authenticateLimited (token : String)
  | effective (u : User)
  | authorize (u : User) (scope : Option Scope)
  | authorizeStaff (u : User) (scope : Option Scope)
  | issue (user : Int) (role : Role) (limited : Bool)
  | issueLimited (user : Int) (role : Role)
  | verifyToken (token : String)
  | refresh (token : String)
  | requestCode (name : Username) (purpose : OtpPurpose) (greeted : Option String)
  | checkCode (name : Username) (code : String)
  | createGroup (g : Group)
  | updateGroup (name : String) (u : GroupUpdate)
  | deleteGroups (names : List String)

namespace Operation

/-- Performs an operation. -/
def perform (a : Accounts) : Operation → Action Result
  | signInWithPassword name password roles =>
    Result.pair <$> a.signInWithPassword name password roles
  | signInWithCode name code => Result.pair <$> a.signInWithCode name code
  | signInWithProfile p => Result.pair <$> a.signInWithProfile p
  | signInWithProvider provider code =>
    Result.pair <$> a.signInWithProvider provider.toIdentityProvider code
  | signOut actor target => Result.flag <$> Accounts.signOut actor target
  | changePassword u old new limited => Result.ofPair? <$> a.changePassword u old new limited
  | requestSignInCode name => (fun _ => Result.done) <$> a.requestSignInCode name
  | requestResetCode name => (fun _ => Result.done) <$> a.requestResetCode name
  | verifyCode name code => Result.pair <$> a.verifyCode name code
  | verifyResetCode name code => Result.token <$> a.verifyResetCode name code
  | authenticate token => (Result.user · false) <$> a.authenticate token
  | authenticateLimited token => (fun r => Result.user r.1 r.2) <$> a.authenticateLimited token
  | effective u => Result.permissions <$> Permissions.effective u
  | authorize u scope => (fun _ => Result.done) <$> Permissions.check u scope
  | authorizeStaff u scope => (fun _ => Result.done) <$> Accounts.authorizeStaff u scope
  | issue user role limited => Result.pair <$> a.tokens.issue user role limited
  | issueLimited user role => Result.token <$> a.tokens.issueLimited user role
  | verifyToken token => Result.claims <$> a.tokens.verify token
  | refresh token => Result.pair <$> a.tokens.refresh token
  | requestCode name purpose greeted =>
    (fun _ => Result.done) <$> Otp.request a.otp name purpose greeted
  | checkCode name code => (fun _ => Result.done) <$> Otp.verify a.otp name code
  | createGroup g => Result.group <$> Groups.create g
  | updateGroup name u => Result.group <$> Groups.update name u
  | deleteGroups names => Result.count <$> Groups.delete names

end Operation

/-- An operation, when it happens, and its random draws. -/
structure Step where
  /-- The time in nanoseconds. -/
  now : Nat
  /-- The random draws. -/
  draws : Draws
  /-- The operation. -/
  operation : Operation

/-- What the operation of a step finds outside. -/
def Step.moment (s : Step) : Moment := s.draws.moment s.now

@[simp] theorem Step.now_moment (s : Step) : s.moment.now = s.now := rfl

/-- A step that was made: the world it found, and its answer. -/
structure Record where
  /-- The step. -/
  step : Step
  /-- The world it found. -/
  before : World
  /-- Its answer. -/
  answer : Answer Result

/-- The clock never goes back. -/
def InOrder (steps : List Step) : Prop := steps.Pairwise fun s t => s.now ≤ t.now

/-- What holds of all items of a list and of one behind them. -/
theorem forall_mem_concat {α : Type} {p : α → Prop} {as : List α} {x : α} :
    (∀ y ∈ as ++ [x], p y) ↔ (∀ y ∈ as, p y) ∧ p x := by
  rw [List.forall_mem_append, List.forall_mem_singleton]

namespace Accounts

variable {a : Accounts} {w : World}

/-- Makes a step. -/
def step (a : Accounts) (s : Step) (w : World) : Answer Result × World :=
  (s.operation.perform a).perform s.moment w

/-- The record of a step. -/
def record (a : Accounts) (s : Step) (w : World) : Record := ⟨s, w, (a.step s w).1⟩

/-- The world after some steps. -/
def after (a : Accounts) (w : World) (steps : List Step) : World :=
  steps.foldl (fun w s => (a.step s w).2) w

/-- The record of some steps. -/
def trace (a : Accounts) (w : World) : List Step → List Record
  | [] => []
  | s :: steps => a.record s w :: a.trace (a.step s w).2 steps

theorem after_append (steps later : List Step) :
    a.after w (steps ++ later) = a.after (a.after w steps) later :=
  List.foldl_append

@[simp] theorem after_concat (steps : List Step) (s : Step) :
    a.after w (steps ++ [s]) = (a.step s (a.after w steps)).2 := by
  rw [after_append]
  rfl

@[simp] theorem trace_nil : a.trace w [] = [] := rfl

theorem trace_append (steps later : List Step) :
    a.trace w (steps ++ later) = a.trace w steps ++ a.trace (a.after w steps) later := by
  induction steps generalizing w with
  | nil => rfl
  | cons t steps ih => exact congrArg (_ :: ·) ih

@[simp] theorem trace_concat (steps : List Step) (s : Step) :
    a.trace w (steps ++ [s]) = a.trace w steps ++ [a.record s (a.after w steps)] :=
  trace_append steps [s]

/-- The record of a run around one of its steps. -/
theorem trace_append_cons (before : List Step) (s : Step) (since : List Step) :
    a.trace w (before ++ s :: since) =
      a.trace w before ++ a.record s (a.after w before) ::
        a.trace (a.after w (before ++ [s])) since := by
  rw [trace_append, after_concat]
  rfl

/-- What stands in the record of a run is the record of one of its steps. -/
theorem mem_trace {steps : List Step} {r : Record} :
    r ∈ a.trace w steps ↔ ∃ before s since, steps = before ++ s :: since ∧
      r = a.record s (a.after w before) := by
  constructor
  · intro h
    induction steps generalizing w with
    | nil => cases h
    | cons t steps ih =>
      rcases List.mem_cons.1 h with rfl | h
      · exact ⟨[], t, steps, rfl, rfl⟩
      · obtain ⟨before, s, since, rfl, rfl⟩ := ih h
        exact ⟨t :: before, s, since, rfl, rfl⟩
  · rintro ⟨before, s, since, rfl, rfl⟩
    rw [trace_append_cons]
    exact List.mem_append_right _ List.mem_cons_self

/-- What holds at time zero before a run and is kept by every step, as long as the clock does not go
back, holds after the run, at the time of its last step. -/
theorem run_induction {P : List Record → Nat → World → Prop} (hw : P [] 0 w)
    (hstep : ∀ records now v (s : Step), P records now v → now ≤ s.now →
      P (records ++ [a.record s v]) s.now (a.step s v).2)
    (steps : List Step) (hs : InOrder steps) :
    ∃ now, P (a.trace w steps) now (a.after w steps) ∧
      ∀ later, (∀ s ∈ steps, s.now ≤ later) → now ≤ later := by
  induction steps using List.reverseRecOn with
  | nil => exact ⟨0, hw, fun _ _ => Nat.zero_le _⟩
  | append_singleton steps s ih =>
    have hs' := List.pairwise_append.1 hs
    obtain ⟨now, hp, hnow⟩ := ih hs'.1
    have hle : now ≤ s.now := hnow s.now fun q hq => hs'.2.2 q hq s (List.mem_singleton_self s)
    rw [after_concat, trace_concat]
    exact ⟨s.now, hstep _ _ _ s hp hle, fun later h =>
      h s (List.mem_append_right _ (List.mem_singleton_self s))⟩

end Accounts

end AuthCore
