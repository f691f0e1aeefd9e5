import AuthCore.Proofs.Otp.Codes
import Mathlib.Data.List.Induction

/-!
# The life of a one-time code

What a run makes of a code that was requested. Some operations use the code of a username
(`Operation.codeUse?`): they request one, or they check a guess at it, on their own or on the way to
something else. All others leave it alone, whatever they do to other entries of the same cache. So
along a run the code is known by the guesses since it was requested (`Accounts.shows_after`), and
from that it is read off which guess passes, what the counter says, and that asking again neither
helps nor hurts.
-/

namespace AuthCore

open AuthCore.Frame

/-- What is done with the one-time code of a username. -/
inductive CodeUse where
  /-- A code is requested. -/
  | request
  /-- A guess is checked. -/
  | check (guess : String)
  deriving DecidableEq

/-! ### Operations that use a code -/

namespace Accounts

variable {a : Accounts} {m : Moment} {w : World}

theorem perform_needUser_of_found {name : Username} {u : User}
    (h : w.store.findByUsername name none = .ok (some u)) :
    (needUser name).perform m w = (.ok u, w) := by
  rw [needUser, Action.perform_bind, Action.perform_query, h]
  rfl

theorem perform_needUser_of_not_found {name : Username}
    (h : ∀ u, w.store.findByUsername name none ≠ .ok (some u)) :
    ∃ e, (needUser name).perform m w = (.error e, w) := by
  rw [needUser, Action.perform_bind, Action.perform_query]
  cases hf : w.store.findByUsername name none with
  | error e => exact ⟨e, rfl⟩
  | ok o =>
    cases o with
    | none => exact ⟨_, rfl⟩
    | some u => exact absurd hf (h u)

/-- A user who is found is found in the same world. -/
theorem eq_of_needUser {name : Username} {u : User} {v : World}
    (h : (needUser name).perform m w = (.ok u, v)) : v = w := by
  obtain ⟨o, _, hquery, hthere⟩ := Action.perform_bind_eq_ok.1 h
  obtain ⟨-, rfl⟩ := Action.query_eq_ok.1 hquery
  exact (Action.orReject_eq_ok.1 hthere).2

theorem keeps_complete {F : Frame} (hw : F.AllowsWrites) (ht : F.AllowsTokens) (u : User)
    (extra : UserChanges) : F.Keeps (a.complete u extra) :=
  ensures_complete enters_allows hw (fun _ _ => Tokens.keeps_issue ht _ _ _) u extra

end Accounts

namespace Operation

/-- Whether a user is found. -/
def isFound (s : Store) (name : Username) : Bool :=
  match s.findByUsername name none with
  | .ok (some _) => true
  | _ => false

/-- The username whose code an operation gets to use, and how. A few operations look for the user
first and use the code only if they find one. -/
def codeUse? (s : Store) : Operation → Option (Username × CodeUse)
  | requestCode name _ _ => some (name, .request)
  | requestSignInCode name =>
    if (s.findByUsername name none).isOk then some (name, .request) else none
  | requestResetCode name => if isFound s name then some (name, .request) else none
  | checkCode name guess | signInWithCode name guess => some (name, .check guess)
  | verifyCode name guess | verifyResetCode name guess =>
    if isFound s name then some (name, .check guess) else none
  | _ => none

variable {a : Accounts} {op : Operation} {name : Username} {m : Moment} {w : World}

theorem isFound_iff {s : Store} : isFound s name = true ↔
    ∃ u, s.findByUsername name none = .ok (some u) := by
  unfold isFound
  split
  next u h => exact iff_of_true rfl ⟨u, h⟩
  next h => exact iff_of_false Bool.false_ne_true fun ⟨u, hu⟩ => h u hu

/-- An operation that uses a code is about the username of that code. -/
theorem codeName?_of_codeUse? {s : Store} {use : CodeUse} (h : op.codeUse? s = some (name, use)) :
    op.codeName? = some name := by
  cases op <;> simp only [codeUse?, reduceCtorEq, Option.ite_none_right_eq_some] at h
  case requestCode => exact congrArg (·.map Prod.fst) h
  case checkCode => exact congrArg (·.map Prod.fst) h
  case signInWithCode => exact congrArg (·.map Prod.fst) h
  all_goals exact congrArg (·.map Prod.fst) h.2

/-- An operation that checks a guess does so before it changes anything, and goes on only if the
guess passes. -/
theorem perform_of_check {guess : String} (h : op.codeUse? w.store = some (name, .check guess)) :
    ∃ rest : Action Result,
      (∀ F : Frame, F.AllowsWrites → F.AllowsTokens → F.Keeps rest) ∧
      (op.perform a).perform m w = (Otp.verify a.otp name guess >>= fun _ => rest).perform m w := by
  cases op <;> simp only [codeUse?, reduceCtorEq, Option.ite_none_right_eq_some, Option.some.injEq,
    Prod.mk.injEq, CodeUse.check.injEq, and_false] at h
  case checkCode =>
    obtain ⟨rfl, rfl⟩ := h
    refine ⟨pure .done, fun _ _ _ => keeps_pure _, ?_⟩
    rw [perform, map_eq_pure_bind]
  case signInWithCode v _ =>
    obtain ⟨rfl, rfl⟩ := h
    refine ⟨Result.pair <$> (Accounts.findOrRegister v >>= fun u =>
      a.complete u (UserChanges.verified {} v)), fun F hw ht => ?_, ?_⟩
    · exact ((Accounts.keeps_findOrRegister hw v).bind fun u =>
        Accounts.keeps_complete hw ht u _).map _
    · rw [perform, Accounts.signInWithCode, map_bind]
  case verifyCode v _ =>
    obtain ⟨hf, rfl, rfl⟩ := h
    obtain ⟨u, hu⟩ := isFound_iff.1 hf
    refine ⟨Result.pair <$> a.complete u (UserChanges.verified {} v), fun F hw ht => ?_, ?_⟩
    · exact (Accounts.keeps_complete hw ht u _).map _
    · rw [perform, Accounts.verifyCode, map_bind,
        Action.perform_bind_ok (Accounts.perform_needUser_of_found hu), map_bind]
  case verifyResetCode =>
    obtain ⟨hf, rfl, rfl⟩ := h
    obtain ⟨u, hu⟩ := isFound_iff.1 hf
    refine ⟨Result.token <$> a.tokens.issueLimited u.id u.role, fun F hw ht => ?_, ?_⟩
    · exact (Tokens.keeps_issueLimited _ _).map _
    · rw [perform, Accounts.verifyResetCode, map_bind,
        Action.perform_bind_ok (Accounts.perform_needUser_of_found hu), map_bind]

/-- An operation that requests a code does nothing else. -/
theorem perform_of_request (h : op.codeUse? w.store = some (name, .request)) :
    ∃ purpose greeted, (op.perform a).perform m w =
      ((fun _ => Result.done) <$> Otp.request a.otp name purpose greeted).perform m w := by
  cases op <;> simp only [codeUse?, reduceCtorEq, Option.ite_none_right_eq_some, Option.some.injEq,
    Prod.mk.injEq, and_false, and_true] at h
  case requestCode purpose greeted =>
    subst h
    exact ⟨purpose, greeted, rfl⟩
  case requestSignInCode v =>
    obtain ⟨hf, rfl⟩ := h
    cases hq : w.store.findByUsername v none with
    | error e => rw [hq] at hf; cases hf
    | ok u =>
      have hquery : (Action.query (·.findByUsername v none)).perform m w = (.ok u, w) := by
        rw [Action.perform_query, hq]
      refine ⟨.verification, u.bind User.displayName, ?_⟩
      rw [perform, Accounts.requestSignInCode, map_bind, Action.perform_bind_ok hquery]
  case requestResetCode =>
    obtain ⟨hf, rfl⟩ := h
    obtain ⟨u, hu⟩ := isFound_iff.1 hf
    refine ⟨.resetPassword, u.displayName, ?_⟩
    rw [perform, Accounts.requestResetCode, map_bind,
      Action.perform_bind_ok (Accounts.perform_needUser_of_found hu)]

/-- An operation that gets to use no code does no more than a frame allows that allows what
operations do to the store and to tokens. -/
theorem allows_of_unused {F : Frame} (hw : F.AllowsWrites) (ht : F.AllowsTokens)
    (h : op.codeUse? w.store = none) : F.Allows m w ((op.perform a).perform m w).2 := by
  have hfail {α β : Type} {x : Action α} {e : Error} (hx : x.perform m w = (.error e, w))
      (f : α → Action β) (g : β → Result) : F.Allows m w ((g <$> (x >>= f)).perform m w).2 := by
    rw [Action.perform_map, Action.perform_bind_error hx]
    exact F.refl m w
  have hlost {v : Username} (hv : isFound w.store v = false) {β : Type} (f : User → Action β)
      (g : β → Result) : F.Allows m w ((g <$> (Accounts.needUser v >>= f)).perform m w).2 := by
    have hu : ∀ u, w.store.findByUsername v none ≠ .ok (some u) := fun u hu =>
      Bool.false_ne_true (hv.symm.trans (isFound_iff.2 ⟨u, hu⟩))
    obtain ⟨e, he⟩ := Accounts.perform_needUser_of_not_found (m := m) hu
    exact hfail he f g
  by_cases hn : op.codeName? = none
  · refine keeps_perform op hw ht (fun v hv => ?_) m w
    rw [hn] at hv
    cases hv
  · cases op
    case requestSignInCode v =>
      cases hq : w.store.findByUsername v none with
      | ok u => rw [codeUse?, hq] at h; cases h
      | error e =>
        refine hfail (x := Action.query (·.findByUsername v none)) (e := e) ?_ _ _
        rw [Action.perform_query, hq]
    case requestResetCode v => exact hlost (by simpa [codeUse?] using h) _ _
    case verifyCode v _ => exact hlost (by simpa [codeUse?] using h) _ _
    case verifyResetCode v _ => exact hlost (by simpa [codeUse?] using h) _ _
    all_goals first | exact absurd rfl hn | cases h

end Operation

/-! ### Steps -/

/-- The guess that is checked, if one is. -/
def CodeUse.guess? : CodeUse → Option String
  | request => none
  | check guess => some guess

namespace Record

/-- What a step gets to do with the code of a username, if anything. -/
def use? (u : Username) (r : Record) : Option CodeUse :=
  ((r.step.operation.codeUse? r.before.store).filter fun x => x.1.value = u.value).map (·.2)

/-- The guess at the code of a username that a step gets to check, if any. -/
def guess? (u : Username) (r : Record) : Option String := (r.use? u).bind CodeUse.guess?

/-- The guess that a step checks is the code: the check itself succeeds, whatever follows. -/
def Passes (a : Accounts) (u : Username) (r : Record) : Prop :=
  ∃ guess, r.guess? u = some guess ∧
    ((Otp.verify a.otp u guess).perform r.step.moment r.before).1 = .ok ()

/-- A step has successfully requested a code for a username. -/
def Obtains (u : Username) (r : Record) : Prop :=
  r.use? u = some .request ∧ r.answer = .ok .done

variable {u : Username} {r : Record}

theorem use?_eq_some_iff {use : CodeUse} : r.use? u = some use ↔
    ∃ name, r.step.operation.codeUse? r.before.store = some (name, use) ∧ name.value = u.value := by
  rw [use?, Option.map_eq_some_iff]
  constructor
  · rintro ⟨⟨name, use⟩, h, rfl⟩
    obtain ⟨h, hn⟩ := Option.filter_eq_some_iff.1 h
    exact ⟨name, h, of_decide_eq_true hn⟩
  · rintro ⟨name, h, hn⟩
    exact ⟨(name, use), Option.filter_eq_some_iff.2 ⟨h, decide_eq_true hn⟩, rfl⟩

theorem guess?_eq_some_iff {guess : String} :
    r.guess? u = some guess ↔ r.use? u = some (.check guess) := by
  rw [guess?]
  rcases r.use? u with _ | _ | _ <;> simp [CodeUse.guess?]

end Record

namespace Accounts

variable {a : Accounts} {u : Username} {s : Step} {w : World} {k : MemoryCache}
  {p : Option Otp.Pending}

/-- A step that does not use the code of a username leaves its entry alone. -/
theorem step_of_unused (hc : w.cache = .memory k) (hk : k.Within)
    (hu : (a.record s w).use? u = none) :
    ∃ d, (a.step s w).2.cache = .memory d ∧ d.Within ∧
      ∀ later, s.now ≤ later → d.live? later (Otp.key u) = k.live? later (Otp.key u) := by
  have htokens : (keys (· = Otp.key u)).AllowsTokens :=
    allowsTokens_keys fun token => Tokens.key_ne_otpKey token u
  have hallows : (keys (· = Otp.key u)).Allows s.moment w (a.step s w).2 := by
    cases hx : s.operation.codeUse? w.store with
    | none => exact Operation.allows_of_unused allowsWrites_keys htokens hx
    | some x =>
      obtain ⟨name, use⟩ := x
      have hne : name.value ≠ u.value := fun he =>
        Option.some_ne_none use ((Record.use?_eq_some_iff.2 ⟨name, hx, he⟩).symm.trans hu)
      refine Operation.keeps_perform s.operation allowsWrites_keys htokens (fun v hv => ?_) _ _
      rw [Operation.codeName?_of_codeUse? hx] at hv
      exact Option.some.inj hv ▸ allowsCode_keys fun hkey => hne (Otp.key_eq_iff.1 hkey)
  obtain ⟨d, hd, hdw, hl⟩ := hallows k hc hk
  exact ⟨d, hd, hdw, hl _ rfl⟩

/-- What a step that checks a guess answers, and what is known of the code afterwards. -/
theorem step_of_check (hL : a.otp.maxRetries < 2 ^ 63) (hc : w.cache = .memory k) (hk : k.Within)
    (h : Otp.Shows a.otp u s.now p k) {guess : String}
    (hu : (a.record s w).guess? u = some guess) :
    ∃ d, (a.step s w).2.cache = .memory d ∧ d.Within ∧
      ((Otp.Admits a.otp s.now guess p ∧ (a.record s w).Passes a u ∧
          Otp.Shows a.otp u s.now none d) ∨
        (¬ Otp.Admits a.otp s.now guess p ∧ ¬ (a.record s w).Passes a u ∧
          (a.step s w).1 = .error (.auth .otpExpiredOrInvalid) ∧
          Otp.Shows a.otp u s.now (p.map Otp.Pending.miss) d)) := by
  obtain ⟨name, (hx : s.operation.codeUse? w.store = some (name, .check guess)), hn⟩ :=
    Record.use?_eq_some_iff.1 (Record.guess?_eq_some_iff.1 hu)
  obtain ⟨rest, hrest, hperform⟩ := Operation.perform_of_check (a := a) (m := s.moment) hx
  rw [Otp.verify_congr hn] at hperform
  have hpasses : (a.record s w).Passes a u ↔
      ((Otp.verify a.otp u guess).perform s.moment w).1 = .ok () :=
    ⟨fun ⟨g, hg, ha⟩ => Option.some.inj (hu.symm.trans hg) ▸ ha, fun ha => ⟨guess, hu, ha⟩⟩
  obtain ⟨d, hd, hdw, hcases⟩ := Otp.verify_shows (m := s.moment) hL hc hk h guess
  rcases hv : (Otp.verify a.otp u guess).perform s.moment w with ⟨r, v⟩
  rw [hv] at hd hcases hpasses
  rw [hpasses, step, hperform, Action.perform_bind, hv]
  rcases hcases with ⟨ha, hr, hs⟩ | ⟨ha, hr, hs⟩
  · -- what follows a guess that passes leaves the entry alone
    obtain rfl : r = .ok () := hr
    have htokens : (keys (· = Otp.key u)).AllowsTokens :=
      allowsTokens_keys fun token => Tokens.key_ne_otpKey token u
    obtain ⟨d', hd', hdw', hl⟩ := hrest _ allowsWrites_keys htokens s.moment v d hd hdw
    exact ⟨d', hd', hdw', .inl ⟨ha, rfl, hs.keep le_rfl (hl _ rfl)⟩⟩
  · obtain rfl : r = .error (.auth .otpExpiredOrInvalid) := hr
    exact ⟨d, hd, hdw, .inr ⟨ha, nofun, rfl, hs⟩⟩

/-- What a step that requests a code answers, and what is known of the code afterwards. -/
theorem step_of_request (hc : w.cache = .memory k) (hk : k.Within)
    (hu : (a.record s w).use? u = some .request) :
    ∃ d, (a.step s w).2.cache = .memory d ∧ d.Within ∧
      (((a.record s w).Obtains u ∧ k.live? s.now (Otp.key u) = none ∧
          Otp.Shows a.otp u s.now (some (Otp.fresh a.otp s.moment)) d) ∨
        (¬ (a.record s w).Obtains u ∧
          ((k.live? s.now (Otp.key u)).isSome = true →
            (a.step s w).1 = .error (.auth .otpExists)) ∧
          ∀ later, s.now ≤ later → d.live? later (Otp.key u) = k.live? later (Otp.key u))) := by
  obtain ⟨name, (hx : s.operation.codeUse? w.store = some (name, .request)), hn⟩ :=
    Record.use?_eq_some_iff.1 hu
  obtain ⟨purpose, greeted, hperform⟩ :=
    Operation.perform_of_request (a := a) (m := s.moment) hx
  have hkey : Otp.key name = Otp.key u := Otp.key_eq_iff.2 hn
  obtain ⟨d, hd, hdw, hcases⟩ :=
    Otp.request_shows (m := s.moment) (c := a.otp) (u := name) hc hk purpose greeted
  rcases hv : (Otp.request a.otp name purpose greeted).perform s.moment w with ⟨r, v⟩
  rw [hv, hkey] at hcases
  rw [hv] at hd
  have hstep : a.step s w = (r.map fun _ => Result.done, v) := by
    rw [step, hperform, Action.perform_map, hv]
  have hobtains : (a.record s w).Obtains u ↔ r = .ok () := by
    have ha : (a.record s w).answer = r.map fun _ => Result.done := congrArg Prod.fst hstep
    rw [Record.Obtains, and_iff_right hu, ha]
    cases r <;> simp [Except.map]
  rw [hobtains, hstep]
  refine ⟨d, hd, hdw, ?_⟩
  rcases hcases with ⟨rfl, hl, hs⟩ | ⟨⟨e, rfl, he⟩, hl⟩
  · exact .inl ⟨rfl, hl, fun later hle => hkey ▸ hs later hle⟩
  · exact .inr ⟨nofun, fun hlive => congrArg Except.error (he hlive), hl⟩

/-- A cache in memory stays one. -/
theorem memory_after (hc : w.cache = .memory k) (hk : k.Within) (steps : List Step) :
    ∃ d, (a.after w steps).cache = .memory d ∧ d.Within := by
  induction steps generalizing w k with
  | nil => exact ⟨k, hc, hk⟩
  | cons s steps ih =>
    have hkeeps : (keys fun _ => False).Keeps (s.operation.perform a) :=
      Operation.keeps_perform s.operation allowsWrites_keys (allowsTokens_keys fun _ => id)
        fun _ _ => allowsCode_keys id
    obtain ⟨d, hd, hdw, -⟩ := hkeeps s.moment w k hc hk
    exact ih hd hdw

end Accounts

/-! ### Runs -/

/-- The guesses at the code of a username that some steps got to check. -/
def guesses (u : Username) (records : List Record) : List String :=
  records.filterMap (Record.guess? u)

/-- What is known of a pending code after some steps: once a guess has passed it is gone, and until
then it has only gathered guesses. -/
def Otp.Known (a : Accounts) (u : Username) (q : Pending) (records : List Record) :
    Option Pending → Prop
  | none => ∃ r ∈ records, r.Passes a u
  | some p => (∀ r ∈ records, ¬ r.Passes a u) ∧
      p = { q with wrong := q.wrong + (guesses u records).length }

namespace Otp.Known

variable {a : Accounts} {u : Username} {q : Pending} {records : List Record} {r : Record}
  {p : Option Pending}

theorem nil : Known a u q [] (some q) := by
  refine ⟨List.forall_mem_nil _, ?_⟩
  rw [guesses, List.filterMap_nil, List.length_nil, Nat.add_zero]

theorem keep (h : Known a u q records p) (hr : r.guess? u = none) :
    Known a u q (records ++ [r]) p := by
  cases p with
  | none =>
    obtain ⟨r', hr', hp⟩ := h
    exact ⟨r', List.mem_append_left _ hr', hp⟩
  | some p =>
    obtain ⟨h, rfl⟩ := h
    refine ⟨forall_mem_concat.2 ⟨h, fun ⟨_, hg, _⟩ => Option.some_ne_none _ (hg.symm.trans hr)⟩, ?_⟩
    rw [guesses, guesses, List.filterMap_append, List.filterMap_cons_none hr, List.filterMap_nil,
      List.append_nil]

theorem pass (hr : r.Passes a u) : Known a u q (records ++ [r]) none :=
  ⟨r, List.mem_append_right _ (List.mem_singleton_self r), hr⟩

theorem miss (h : Known a u q records p) {guess : String} (hr : r.guess? u = some guess)
    (hp : ¬ r.Passes a u) : Known a u q (records ++ [r]) (p.map Pending.miss) := by
  cases p with
  | none =>
    obtain ⟨r', hr', hp⟩ := h
    exact ⟨r', List.mem_append_left _ hr', hp⟩
  | some p =>
    obtain ⟨h, rfl⟩ := h
    refine ⟨forall_mem_concat.2 ⟨h, hp⟩, ?_⟩
    rw [Pending.miss, guesses, guesses, List.filterMap_append, List.filterMap_cons_some hr,
      List.filterMap_nil, List.length_append, List.length_singleton, Nat.add_assoc]

/-- A guess is admitted if it is right, the code has not expired or been used, and not too many
guesses were made before. -/
theorem admits_iff (h : Known a u q records p) {now : Nat} {guess : String} :
    Admits a.otp now guess p ↔ now < q.expiry ∧ guess = q.code ∧
      (∀ r ∈ records, ¬ r.Passes a u) ∧
        (q.wrong : Int) + (guesses u records).length + 1 ≤ a.otp.maxRetries := by
  cases p with
  | none =>
    obtain ⟨r, hr, hp⟩ := h
    exact iff_of_false (fun ⟨p, he, _⟩ => Option.some_ne_none p he.symm) fun h => h.2.2.1 r hr hp
  | some p =>
    obtain ⟨h, rfl⟩ := h
    constructor
    · rintro ⟨p, he, hadmits⟩
      obtain ⟨hnow, hguess, hlt⟩ := Option.some.inj he ▸ hadmits
      refine ⟨hnow, hguess, h, ?_⟩
      push_cast at hlt
      omega
    · rintro ⟨hnow, hguess, -, hle⟩
      refine ⟨_, rfl, hnow, hguess, ?_⟩
      push_cast
      omega

/-- The code is in the cache until it expires or a guess passes. -/
theorem live? (h : Known a u q records p) {now : Nat} {d : MemoryCache}
    (hs : Shows a.otp u now p d) :
    (now < q.expiry → (∀ r ∈ records, ¬ r.Passes a u) → d.live? now (key u) =
      some (Pending.entry a.otp { q with wrong := q.wrong + (guesses u records).length })) ∧
    (¬ (now < q.expiry ∧ ∀ r ∈ records, ¬ r.Passes a u) → d.live? now (key u) = none) := by
  cases p with
  | none =>
    obtain ⟨r, hr, hp⟩ := h
    exact ⟨fun _ hu => absurd hp (hu r hr), fun _ => hs now le_rfl⟩
  | some p =>
    obtain ⟨h, rfl⟩ := h
    refine ⟨fun hnow _ => hs.live?_some hnow, fun hn => hs.live?_none fun p hp => ?_⟩
    rw [← Option.some.inj hp]
    exact not_lt.1 fun hlt => hn ⟨hlt, h⟩

end Otp.Known

namespace Accounts

variable {a : Accounts} {u : Username} {w : World} {k : MemoryCache} {q : Otp.Pending}

/-- A run without a further successful request keeps track of a code. -/
theorem shows_after (hL : a.otp.maxRetries < 2 ^ 63) (hc : w.cache = .memory k) (hk : k.Within)
    {now : Nat} (h : Otp.Shows a.otp u now (some q) k) (steps : List Step) (hs : InOrder steps)
    (hnow : ∀ s ∈ steps, now ≤ s.now) (hno : ∀ r ∈ a.trace w steps, ¬ r.Obtains u) :
    ∃ d p, (a.after w steps).cache = .memory d ∧ d.Within ∧
      Otp.Known a u q (a.trace w steps) p ∧
      ∀ later, now ≤ later → (∀ s ∈ steps, s.now ≤ later) → Otp.Shows a.otp u later p d := by
  induction steps using List.reverseRecOn with
  | nil =>
    exact ⟨k, some q, hc, hk, .nil, fun later hl _ => h.keep hl fun _ _ => rfl⟩
  | append_singleton steps s ih =>
    rw [trace_concat] at hno ⊢
    rw [after_concat]
    have hs' := List.pairwise_append.1 hs
    obtain ⟨d, p, hd, hdw, hknown, hshows⟩ := ih hs'.1
      (fun s hs => hnow s (List.mem_append_left _ hs)) fun r hr => hno r (List.mem_append_left _ hr)
    have hp : Otp.Shows a.otp u s.now p d := hshows s.now
      (hnow s (List.mem_append_right _ (List.mem_singleton_self s)))
      fun t ht => hs'.2.2 t ht s (List.mem_singleton_self s)
    have hlast : ¬ (a.record s (a.after w steps)).Obtains u :=
      hno _ (List.mem_append_right _ (List.mem_singleton_self _))
    have hlater {p : Option Otp.Pending} {d : MemoryCache} (hp : Otp.Shows a.otp u s.now p d)
        (later : Nat) (hle : ∀ t ∈ steps ++ [s], t.now ≤ later) : Otp.Shows a.otp u later p d :=
      hp.keep (hle s (List.mem_append_right _ (List.mem_singleton_self s))) fun _ _ => rfl
    cases hu : (a.record s (a.after w steps)).use? u with
    | none =>
      obtain ⟨d', hd', hdw', hl⟩ := step_of_unused hd hdw hu
      have hg : (a.record s (a.after w steps)).guess? u = none := by
        rw [Record.guess?, hu, Option.bind_none]
      exact ⟨d', p, hd', hdw', hknown.keep hg, fun later _ => hlater (hp.keep le_rfl hl) later⟩
    | some use =>
      cases use with
      | request =>
        have hg : (a.record s (a.after w steps)).guess? u = none := by
          rw [Record.guess?, hu, Option.bind_some, CodeUse.guess?]
        obtain ⟨d', hd', hdw', ⟨ho, -⟩ | ⟨-, -, hl⟩⟩ := step_of_request hd hdw hu
        · exact absurd ho hlast
        · exact ⟨d', p, hd', hdw', hknown.keep hg, fun later _ => hlater (hp.keep le_rfl hl) later⟩
      | check guess =>
        have hg := Record.guess?_eq_some_iff.2 hu
        obtain ⟨d', hd', hdw', ⟨-, hpass, hs⟩ | ⟨-, hpass, -, hs⟩⟩ :=
          step_of_check hL hd hdw hp hg
        · exact ⟨d', none, hd', hdw', .pass hpass, fun later _ => hlater hs later⟩
        · exact ⟨d', _, hd', hdw', hknown.miss hg hpass, fun later _ => hlater hs later⟩

/-- What is known of a code that was requested, some steps later. -/
theorem shows_since (hL : a.otp.maxRetries < 2 ^ 63) (hc : w.cache = .memory k) (hk : k.Within)
    (before : List Step) (r : Step) (since : List Step) (s : Step)
    (hs : InOrder (before ++ r :: since ++ [s])) (hr : (a.record r (a.after w before)).Obtains u)
    (hno : ∀ q ∈ a.trace (a.after w (before ++ [r])) since, ¬ q.Obtains u) :
    ∃ d p, (a.after w (before ++ r :: since)).cache = .memory d ∧ d.Within ∧
      Otp.Known a u (Otp.fresh a.otp r.moment)
        (a.trace (a.after w (before ++ [r])) since) p ∧
      Otp.Shows a.otp u s.now p d := by
  rw [List.append_assoc] at hs
  obtain ⟨hr', hs'⟩ := List.pairwise_cons.1 (List.pairwise_append.1 hs).2.1
  obtain ⟨hsince, -, hlast⟩ := List.pairwise_append.1 hs'
  have hx : a.after w (before ++ r :: since) = a.after (a.after w (before ++ [r])) since := by
    rw [← after_append, List.append_assoc, List.singleton_append]
  obtain ⟨k', hk', hkw'⟩ := memory_after (a := a) hc hk before
  obtain ⟨d, hd, hdw, ⟨-, -, hfresh⟩ | ⟨ho, -⟩⟩ :=
    step_of_request hk' hkw' hr.1
  · rw [← after_concat] at hd
    obtain ⟨e, p, he, hew, hknown, hshows⟩ := shows_after hL hd hdw hfresh since hsince
      (fun t ht => hr' t (List.mem_append_left _ ht)) hno
    exact ⟨e, p, hx ▸ he, hew, hknown, hshows s.now
      (hr' s (List.mem_append_right _ (List.mem_singleton_self s)))
      fun t ht => hlast t ht s (List.mem_singleton_self s)⟩
  · exact absurd hr ho

/-- After a successful request for a username, and as long as no other one has succeeded, a guess
passes exactly if the code has not expired, the guess is the code, no guess has passed since, and at
most as many guesses as the limit have been made, this one included; else the operation says that
the code is wrong. The cache keeps the code until it expires or a guess passes, with the number of
guesses since, of which no more than the limit are counted. Until then another request is refused
and changes nothing about the entry. Usernames are told apart by their values, and the limit is a
number of 64 bits. -/
theorem code_lifecycle (a : Accounts) (hL : a.otp.maxRetries < 2 ^ 63)
    (hc : w.cache = .memory k) (hk : k.Within) (u : Username) (before : List Step) (r : Step)
    (since : List Step) (s : Step) (hs : InOrder (before ++ r :: since ++ [s]))
    (hr : (a.record r (a.after w before)).Obtains u)
    (hno : ∀ q ∈ a.trace (a.after w (before ++ [r])) since, ¬ q.Obtains u) :
    let records := a.trace (a.after w (before ++ [r])) since
    let found := a.after w (before ++ r :: since)
    let last := a.record s found
    let code := Otp.code a.otp r.moment
    let expiry := r.now + seconds (Otp.window a.otp)
    let made := (guesses u records).length
    let unused := ∀ q ∈ records, ¬ q.Passes a u
    (∀ guess, last.guess? u = some guess →
      (last.Passes a u ↔
        s.now < expiry ∧ guess = code ∧ unused ∧ (made : Int) + 1 ≤ a.otp.maxRetries) ∧
      (¬ last.Passes a u → last.answer = .error (.auth .otpExpiredOrInvalid))) ∧
    ∃ c d, found.cache = .memory c ∧ (a.step s found).2.cache = .memory d ∧
      (s.now < expiry → unused →
        c.live? s.now (Otp.key u) = some ⟨.hash (.ofList [(Otp.codeField, code),
          (Otp.retryField, Text.showInt (min (made : Int) (max a.otp.maxRetries 0)))]),
          some expiry⟩ ∧
        (last.use? u = some .request →
          last.answer = .error (.auth .otpExists) ∧
          ∀ later, s.now ≤ later → d.live? later (Otp.key u) = c.live? later (Otp.key u))) ∧
      (¬ (s.now < expiry ∧ unused) → c.live? s.now (Otp.key u) = none) := by
  intro records found last code expiry made unused
  obtain ⟨c, p, hc', hcw, hknown, hshows⟩ := shows_since hL hc hk before r since s hs hr hno
  refine ⟨fun guess hg => ?_, ?_⟩
  · have hadmits : Otp.Admits a.otp s.now guess p ↔ s.now < expiry ∧ guess = code ∧ unused ∧
        (made : Int) + 1 ≤ a.otp.maxRetries := by
      have hwrong : ((Otp.fresh a.otp r.moment).wrong : Int) = 0 := rfl
      rw [hknown.admits_iff, hwrong, Int.zero_add]
      rfl
    rw [← hadmits]
    obtain ⟨-, -, -, ⟨ha, hp, -⟩ | ⟨ha, hp, he, -⟩⟩ := step_of_check hL hc' hcw hshows hg
    · exact ⟨iff_of_true hp ha, fun hn => absurd hp hn⟩
    · exact ⟨iff_of_false hp ha, fun _ => he⟩
  · obtain ⟨d, hd, -⟩ := memory_after (a := a) hc' hcw [s]
    obtain ⟨hlive, hgone⟩ := hknown.live? hshows
    refine ⟨c, d, hc', hd, fun hnow hunused => ⟨?_, fun hu => ?_⟩, hgone⟩
    · rw [hlive hnow hunused, Otp.Pending.entry, Otp.Pending.fields, Otp.counted]
      simp only [Otp.fresh, Nat.zero_add]
      rfl
    · have hsome : (c.live? s.now (Otp.key u)).isSome = true := by
        rw [hlive hnow hunused, Option.isSome_some]
      obtain ⟨d', hd', -, ⟨-, hnone, -⟩ | ⟨-, he, hl⟩⟩ := step_of_request hc' hcw hu
      · rw [hnone] at hsome
        cases hsome
      · obtain rfl : d = d' := Cache.memory.inj (hd.symm.trans hd')
        exact ⟨he hsome, hl⟩

/-- A wrong guess and then the right one, which is the last that the limit allows. -/
theorem code_lifecycle_second :
    let a : Accounts :=
      ⟨⟨⟨"secret", .hs256⟩, 60, 120⟩, { testMode := true, maxRetries := 2 }, 4, 16⟩
    let d : Draws := ⟨id, id, id, id⟩
    let u : Username := .phone "+491234567"
    let w := Action.worldOf (.memory (.new 1)) (.memory .empty) .log
    let request : Step := ⟨0, d, .requestCode u .verification none⟩
    let wrong : Step := ⟨1, d, .checkCode u ""⟩
    let right : Step := ⟨2, d, .checkCode u a.otp.testCode⟩
    (a.record right (a.after w [request, wrong])).Passes a u := by
  intro a d u w request wrong right
  have hL : a.otp.maxRetries < 2 ^ 63 := by decide
  have hr : (a.record request w).Obtains u := ⟨rfl, rfl⟩
  have hwrong : ¬ (a.record wrong (a.after w [request])).Passes a u := fun hp => by
    have h := code_lifecycle a hL rfl (MemoryCache.within_new 1) u [] request [] wrong
      (List.pairwise_pair.2 (Nat.zero_le _)) hr (List.forall_mem_nil _)
    have hcode : "" = a.otp.testCode := ((h.1 "" rfl).1.1 hp).2.1
    exact absurd hcode (by decide)
  have hs : InOrder [request, wrong, right] := by
    refine List.pairwise_cons.2 ⟨fun _ _ => Nat.zero_le _, List.pairwise_pair.2 ?_⟩
    exact Nat.le_succ 1
  have h := code_lifecycle a hL rfl (MemoryCache.within_new 1) u [] request [wrong] right hs hr
    fun q hq ho => CodeUse.noConfusion (Option.some.inj ((List.mem_singleton.1 hq ▸ ho).1 : _ = _))
  refine (h.1 a.otp.testCode rfl).1.2 ⟨?_, rfl, fun q hq => ?_, le_rfl⟩
  · show 2 < 0 + 50 * 1000000000
    decide
  · rw [List.mem_singleton.1 hq]
    exact hwrong

end Accounts

end AuthCore
