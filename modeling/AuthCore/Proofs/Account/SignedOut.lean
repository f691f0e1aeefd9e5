import AuthCore.Proofs.Account.Users
import AuthCore.Proofs.Token.Origin

/-!
# Who has to sign in again

A forced sign-out marks a user, and the update of a full sign-in or of a change of the password
takes the mark away (`Record.mark?`). Nothing else touches it, so after every run the mark is what
the last of these left (`Accounts.isForceLogin_after`). While a user is marked, access tokens that
are not limited are refused and no refresh token of that user is exchanged.

The mark is all that a sign-out does: it takes no refresh token away. So tokens from before it are
worthless as long as the mark stands (`Accounts.isForceLogin_of_signed_out`), and they are good
again once something has taken it away (`Accounts.refresh_of_unmarked`).
-/

namespace AuthCore

open AuthCore.Frame

/-! ### What a step writes -/

namespace Record

/-- The mark that a step wrote for a user, if any: whether the user has to sign in again. -/
def mark? (a : Accounts) (id : Int) (r : Record) : Option Bool :=
  match r.step.operation with
  | .signOut actor target => if r.answer.isOk ∧ target.getD actor.id = id then some true else none
  | .changePassword u _ _ false => if r.answer.isOk ∧ u.id = id then some false else none
  | op => if op.admits? a r.step.moment r.before = some id then some false else none

end Record

/-- What a written mark does to a user. Without one the user stays the same, or is one that a
database can no longer read. -/
def Store.Marks (id : Int) (mark : Option Bool) (s s' : Store) : Prop :=
  match mark with
  | some b => ∃ u, s'.findById id = .ok (some u) ∧ u.isForceLogin = b
  | none => s'.findById id = s.findById id ∨ ∃ f, s'.findById id = .error f

namespace Store

variable {s s' : Store} {i k : Int} {c : UserChanges} {u : User} {b : Bool}

theorem Spoils.marks (h : s.Spoils s') : Marks i none s s' := by
  rcases h with rfl | ⟨k, f, hf, hothers⟩
  · exact .inl rfl
  · by_cases hk : i = k
    · exact .inr ⟨f, hk ▸ hf⟩
    · exact .inl (hothers i hk)

/-- An update that says what the mark is writes it for the one user only. -/
theorem marks_of_updateUser (h : s.updateUser k c = (.ok u, s')) (hc : c.isForceLogin = some b) :
    Marks i (if k = i then some b else none) s s' := by
  split
  next hk => exact ⟨u, hk ▸ findById_of_updateUser h, isForceLogin_of_updateUser h hc⟩
  next hk =>
    refine .inl ?_
    rw [← findById_updateUser_of_ne (s := s) (c := c) (Ne.symm hk), h]

end Store

namespace Accounts

variable {a : Accounts} {s : Step} {w : World} {id : Int}

theorem mark?_record : (a.record s w).mark? a id =
    match s.operation with
    | .signOut actor target =>
      if (a.step s w).1.isOk ∧ target.getD actor.id = id then some true else none
    | .changePassword u _ _ false =>
      if (a.step s w).1.isOk ∧ u.id = id then some false else none
    | op => if op.admits? a s.moment w = some id then some false else none := rfl

theorem marks_of_entrant {op : Operation} {x : Action (User × UserChanges)}
    (hx : op.entrant? a = some x) (m : Moment) :
    Store.Marks id (if op.admits? a m w = some id then some false else none) w.store
      ((op.perform a).perform m w).2.store := by
  rcases Operation.admits_cases hx m w with
    ⟨hn, -, hspoils⟩ | ⟨u, extra, v, u', s, hxv, hv, hu, hadmits, -⟩
  · rw [hn, if_neg nofun]
    exact hspoils.marks
  · have hmarks := Store.marks_of_updateUser (i := id) hu rfl
    rw [hadmits, Operation.store_of_entrant hx hxv hu]
    split at hmarks
    next hid => rwa [if_pos (congrArg some hid)]
    next hid =>
      rw [if_neg fun h => hid (Option.some.inj h)]
      rcases hv with hv | ⟨n, hn⟩
      · rwa [hv] at hmarks
      · -- a new user is not the one in question
        rw [Store.Marks, (Store.createUser_of_ok hn).2.2.1 id (Ne.symm hid)] at hmarks
        exact hmarks

theorem marks_of_not_writesUsers {op : Operation} (h : op.writesUsers = false) (m : Moment) :
    Store.Marks id (if op.admits? a m w = some id then some false else none) w.store
      ((op.perform a).perform m w).2.store := by
  rw [Operation.admits?_of_entrant?_none (Operation.entrant?_of_not_writesUsers h), if_neg nofun]
  exact .inl ((Operation.sameUsers_perform h m w).findById_eq id)

theorem marks_of_updates {α : Type} {x : Action α} {k : Int} {b : Bool} (hx : x.Updates k b)
    (m : Moment) : Store.Marks id (if (x.perform m w).1.isOk ∧ k = id then some b else none) w.store
      (x.perform m w).2.store := by
  rcases hx m w with ⟨⟨e, he⟩, hspoils⟩ | ⟨r, c, u, hr, hc, hu⟩
  · rw [he, if_neg fun h => Bool.false_ne_true h.1]
    exact hspoils.marks
  · rw [hr]
    have hmarks := Store.marks_of_updateUser (i := id) hu hc
    split at hmarks
    next hid => rwa [if_pos ⟨rfl, hid⟩]
    next hid => rwa [if_neg fun h => hid h.2]

/-- Each step does to a user what the mark says that it wrote, and nothing else that bears on the
mark. -/
theorem step_marks (a : Accounts) (s : Step) (w : World) (id : Int) :
    Store.Marks id ((a.record s w).mark? a id) w.store (a.step s w).2.store := by
  rw [mark?_record, step]
  cases hop : s.operation
  case signOut actor target =>
    exact marks_of_updates ((updates_signOut actor target).map _) s.moment
  case changePassword u old new limited =>
    cases limited with
    | true => exact marks_of_entrant rfl s.moment
    | false => exact marks_of_updates ((updates_changePassword u old new).map _) s.moment
  case signInWithPassword => exact marks_of_entrant rfl s.moment
  case signInWithCode => exact marks_of_entrant rfl s.moment
  case signInWithProfile => exact marks_of_entrant rfl s.moment
  case signInWithProvider => exact marks_of_entrant rfl s.moment
  case verifyCode => exact marks_of_entrant rfl s.moment
  all_goals exact marks_of_not_writesUsers rfl s.moment

/-- The marks that some steps wrote for a user, the last one at the end. -/
def written (a : Accounts) (id : Int) (records : List Record) : List Bool :=
  records.filterMap (Record.mark? a id)

theorem written_append (records later : List Record) :
    written a id (records ++ later) = written a id records ++ written a id later :=
  List.filterMap_append

theorem written_singleton (r : Record) : written a id [r] = (r.mark? a id).toList := by
  rw [written]
  cases hr : r.mark? a id with
  | none => rw [List.filterMap_cons_none hr, List.filterMap_nil, Option.toList_none]
  | some b => rw [List.filterMap_cons_some hr, List.filterMap_nil, Option.toList_some]

/-- After a run the mark of a user is the last one that was written, or else the one that the user
had to begin with. -/
theorem isForceLogin_after (steps : List Step) {u : User}
    (hu : (a.after w steps).store.findById id = .ok (some u)) :
    u.isForceLogin = true ↔ (written a id (a.trace w steps)).getLast? = some true ∨
      written a id (a.trace w steps) = [] ∧
        ∃ u₀, w.store.findById id = .ok (some u₀) ∧ u₀.isForceLogin = true := by
  induction steps using List.reverseRecOn generalizing u with
  | nil =>
    refine ⟨fun h => .inr ⟨rfl, u, hu, h⟩, ?_⟩
    rintro (h | ⟨-, v, hv, h⟩)
    · cases h
    · cases hu.symm.trans hv
      exact h
  | append_singleton steps s ih =>
    have hmarks := a.step_marks s (a.after w steps) id
    rw [after_concat] at hu
    rw [trace_concat, written_append, written_singleton]
    cases hr : (a.record s (a.after w steps)).mark? a id with
    | none =>
      rw [hr] at hmarks
      rw [Option.toList_none, List.append_nil]
      rcases hmarks with hsame | ⟨f, hf⟩
      · exact ih (hsame.symm.trans hu)
      · cases hu.symm.trans hf
    | some b =>
      rw [hr] at hmarks
      obtain ⟨v, hv, rfl⟩ := hmarks
      cases hu.symm.trans hv
      rw [Option.toList_some, List.getLast?_concat, Option.some.injEq]
      exact (or_iff_left fun h => List.concat_ne_nil _ _ h.1).symm

/-! ### What the mark does -/

section Effect

variable {m : Moment} {token : String} {u : User}

theorem perform_needUserById_of_found (h : w.store.findById id = .ok (some u)) :
    (needUserById id).perform m w = (.ok u, w) := by
  rw [needUserById, Action.perform_bind, Action.perform_query, h]
  rfl

/-- Whoever is found is looked at again. -/
theorem perform_needActiveUser_of_found (h : w.store.findById id = .ok (some u)) :
    (needActiveUser id).perform m w =
      (match inactive? u with
        | some e => .error (.auth e)
        | none => .ok u, w) := by
  rw [needActiveUser, Action.perform_bind_ok (perform_needUserById_of_found h)]
  cases inactive? u <;> rfl

theorem inactive?_of_signed_out (hf : u.isForceLogin = true) :
    inactive? u = some .userForceLogin := if_pos hf

theorem perform_verify_of_ok {c : AccessClaims}
    (h : AccessToken.verify a.tokens.signer m.second token = .ok c) :
    (a.tokens.verify token).perform m w = (.ok c, w) := by
  rw [Tokens.verify, Action.perform_bind_ok Action.perform_read, Action.perform_ofAnswer, h]
  rfl

/-- Whoever presents a token that verifies and is not limited is found and looked at again. -/
theorem perform_authenticate {c : AccessClaims}
    (hv : AccessToken.verify a.tokens.signer m.second token = .ok c) (hl : c.limited = false)
    (hu : w.store.findById c.userId = .ok (some u)) :
    (a.authenticate token).perform m w =
      (match inactive? u with
        | some e => .error (.auth e)
        | none => .ok u, w) := by
  have hr : (Action.require (!c.limited) .limitedToken).perform m w = (.ok (), w) :=
    Action.require_eq_ok.2 ⟨by rw [hl]; rfl, rfl⟩
  rw [authenticate, Action.perform_bind_ok (perform_verify_of_ok hv), Action.perform_bind_ok hr,
    perform_needActiveUser_of_found hu]

/-- Whoever has to sign in again cannot use an access token, unless it is limited. -/
theorem authenticate_of_signed_out {c : AccessClaims}
    (hv : AccessToken.verify a.tokens.signer m.second token = .ok c) (hl : c.limited = false)
    (hu : w.store.findById c.userId = .ok (some u)) (hf : u.isForceLogin = true) :
    ((a.authenticate token).perform m w).1 = .error (.auth .userForceLogin) ∧
      ((a.authenticateLimited token).perform m w).1 = .error (.auth .userForceLogin) := by
  have hinactive := inactive?_of_signed_out hf
  constructor
  · rw [perform_authenticate hv hl hu, hinactive]
  · have hneed := perform_needActiveUser_of_found (m := m) hu
    rw [hinactive] at hneed
    rw [authenticateLimited, Action.perform_bind_ok (perform_verify_of_ok hv), hl]
    simp only [Bool.not_false, if_true, Action.perform_bind_error hneed]

/-- Whoever has to sign in again cannot exchange a refresh token. All that happens is that the entry
is looked up. -/
theorem refresh_of_signed_out {e : String} {f : Cache}
    (hg : Cache.get Json.string? (Tokens.key token) m.now w.cache = (.ok (some e), f))
    (hv : RefreshToken.verify a.tokens.signer token = .ok id) (he : Tokens.entryUser? e = some id)
    (hu : w.store.findById id = .ok (some u)) (hf : u.isForceLogin = true) :
    (a.tokens.refresh token).perform m w =
      (.error (.auth .userForceLogin), { w with cache := f }) := by
  rw [Tokens.perform_refresh_of_fits hg hv he,
    Tokens.perform_exchange_of_found (w := { w with cache := f }) hu, if_pos hf]

end Effect

/-! ### Runs -/

variable {u : User}

/-- A step that would exchange a token of somebody who has to sign in again. -/
theorem step_refresh_of_signed_out {e : String} {f : Cache} {token : String}
    (hop : s.operation = .refresh token)
    (hg : Cache.get Json.string? (Tokens.key token) s.now w.cache = (.ok (some e), f))
    (hv : RefreshToken.verify a.tokens.signer token = .ok id) (he : Tokens.entryUser? e = some id)
    (hu : w.store.findById id = .ok (some u)) (hf : u.isForceLogin = true) :
    (a.step s w).1 = .error (.auth .userForceLogin) ∧ (a.step s w).2.cache = f := by
  have hr := refresh_of_signed_out (m := s.moment) hg hv he hu hf
  rw [step, hop, Operation.perform, Action.perform_map, hr]
  exact ⟨rfl, rfl⟩

/-- After every run a user has to sign in again exactly if a sign-out was the last thing to write
the mark, or if nothing has written it and the user had it before. While the mark stands, no access
token of the user is accepted that verifies and is not limited, and no refresh token of the user is
exchanged; its entry stays in the cache. -/
theorem signed_out_iff (a : Accounts) (w : World) (id : Int) (steps : List Step) (s : Step)
    {u : User} (hu : (a.after w steps).store.findById id = .ok (some u)) :
    (u.isForceLogin = true ↔
      (written a id (a.trace w steps)).getLast? = some true ∨
        written a id (a.trace w steps) = [] ∧
          ∃ u₀, w.store.findById id = .ok (some u₀) ∧ u₀.isForceLogin = true) ∧
    (u.isForceLogin = true →
      (∀ token c, AccessToken.verify a.tokens.signer s.moment.second token = .ok c →
        c.userId = id → c.limited = false →
        s.operation = .authenticate token ∨ s.operation = .authenticateLimited token →
        (a.step s (a.after w steps)).1 = .error (.auth .userForceLogin)) ∧
      (∀ token, RefreshToken.verify a.tokens.signer token = .ok id →
        s.operation = .refresh token →
        (∀ role f, Cache.get Json.string? (Tokens.key token) s.now (a.after w steps).cache =
            (.ok (some (Tokens.entry id role)), f) →
          (a.step s (a.after w steps)).1 = .error (.auth .userForceLogin) ∧
          (a.step s (a.after w steps)).2.cache = f) ∧
        (∀ entries, w.cache = .memory (.new entries) → InOrder (steps ++ [s]) →
          ∃ k, (a.after w steps).cache = .memory k ∧
            ∀ e, k.live? s.now (Tokens.key token) = some e →
              (a.step s (a.after w steps)).1 = .error (.auth .userForceLogin) ∧
              (a.step s (a.after w steps)).2.cache = .memory k))) := by
  refine ⟨isForceLogin_after steps hu, fun hf => ⟨?_, fun token hv hop => ?_⟩⟩
  · rintro token c hv rfl hl hop
    obtain ⟨hfull, hlimited⟩ := authenticate_of_signed_out hv hl hu hf
    rcases hop with hop | hop
    · rw [step, hop, Operation.perform, Action.perform_map, hfull]
      rfl
    · rw [step, hop, Operation.perform, Action.perform_map, hlimited]
      rfl
  · have hrefused (role : Role) (f : Cache)
        (hg : Cache.get Json.string? (Tokens.key token) s.now (a.after w steps).cache =
          (.ok (some (Tokens.entry id role)), f)) :=
      step_refresh_of_signed_out hop hg hv
        (Tokens.entryUser?_entry (RefreshToken.fits_of_verify hv) role) hu hf
    refine ⟨hrefused, fun entries hw hs => ?_⟩
    have hs' := List.pairwise_append.1 hs
    obtain ⟨k, now, hk, hhonest, hnow⟩ := honest_after (a := a) hw steps hs'.1
    have hle : now ≤ s.now := hnow s.now fun q hq => hs'.2.2 q hq s (List.mem_singleton_self s)
    refine ⟨k, hk, fun e he => ?_⟩
    obtain ⟨role, expiry, rfl⟩ := hhonest.entry_of_verify hle he hv
    exact hrefused role (.memory k) (hk ▸ Tokens.get_of_live he)

/-- A pair is issued, its user is signed out and then comes with the refresh token. -/
theorem signed_out_iff_exchange :
    let a : Accounts := ⟨⟨⟨"secret", .hs256⟩, 60, 120⟩, {}, 4, 16⟩
    let d : Draws := .ofSeed 0
    let u : User := (NewUser.customer (.email "a@b")).toUser 1
    let w := Action.worldOf (.memory (.new 1)) (.memory (MemoryStore.empty.insertUser u)) .log
    let issue : Step := ⟨0, d, .issue 1 .customer false⟩
    let out : Step := ⟨1, d, .signOut u none⟩
    let again : Step := ⟨2, d, .refresh (a.tokens.minted 1 issue.moment)⟩
    (a.step again (a.after w [issue, out])).1 = .error (.auth .userForceLogin) ∧
      (a.step again (a.after w [issue, out])).2.cache = (a.after w [issue, out]).cache := by
  intro a d u w issue out again
  have hfound : (a.after w [issue, out]).store.findById 1 =
      .ok (some { u with isForceLogin := true }) := rfl
  have hcache : (a.after w [issue, out]).cache = (a.after w [issue]).cache := rfl
  have hv : RefreshToken.verify a.tokens.signer (a.tokens.minted 1 issue.moment) = .ok 1 :=
    RefreshToken.verify_sign (by decide) (RefreshToken.nonce_ne_empty d 0)
  have hs : InOrder [issue, out, again] := by
    refine List.pairwise_cons.2 ⟨fun _ _ => Nat.zero_le _, List.pairwise_pair.2 ?_⟩
    exact Nat.le_succ 1
  obtain ⟨k, hk, hlive⟩ := (((a.signed_out_iff w 1 [issue, out] again hfound).2 rfl).2
    (a.tokens.minted 1 issue.moment) hv rfl).2 1 rfl hs
  have hissued := (a.tokens.issue_of_hasRoom (m := issue.moment) (w := w) 1 .customer false
    rfl rfl).2
  obtain rfl := Cache.memory.inj (hk.symm.trans (hcache.trans hissued))
  rw [hk]
  refine hlive (a.tokens.noted 1 .customer issue.moment) ?_
  rw [MemoryCache.live?_put_self, Option.filter_some, if_pos]
  show decide (2 < 0 + 120 * 1000000000) = true
  decide

/-! ### Tokens from before a sign-out -/

/-- Once a user has been signed out, and until something takes the mark away, the mark is there. -/
theorem isForceLogin_of_signed_out {before since : List Step} {out : Step}
    (hout : (a.record out (a.after w before)).mark? a id = some true)
    (hsince : ∀ q ∈ a.trace (a.after w (before ++ [out])) since, q.mark? a id ≠ some false)
    (hu : (a.after w (before ++ out :: since)).store.findById id = .ok (some u)) :
    u.isForceLogin = true := by
  refine (isForceLogin_after _ hu).2 (.inl ?_)
  have hall : ∀ b ∈ true :: written a id (a.trace (a.after w (before ++ [out])) since),
      b = true := by
    refine List.forall_mem_cons.2 ⟨rfl, fun b hb => ?_⟩
    obtain ⟨q, hq, hqb⟩ := List.mem_filterMap.1 hb
    cases b with
    | true => rfl
    | false => exact absurd hqb (hsince q hq)
  have hwritten : written a id (a.record out (a.after w before) ::
      a.trace (a.after w (before ++ [out])) since) =
        true :: written a id (a.trace (a.after w (before ++ [out])) since) :=
    List.filterMap_cons_some hout
  rw [trace_append_cons, written_append, hwritten, List.getLast?_append_cons,
    List.getLast?_eq_some_getLast (List.cons_ne_nil _ _), hall _ (List.getLast_mem _)]

/-- Once a user has been signed out, and until something takes the mark away, no refresh token that
was issued to that user before is exchanged, whatever else happens, in any cache and store. -/
theorem error_of_signed_out (a : Accounts) (w : World) (before : List Step) (out : Step)
    (since : List Step) (s : Step) {id : Int} {token : String}
    (hi : ∃ r ∈ a.trace w before, r.Issues a id token) {actor : User} {target : Option Int}
    (hout : out.operation = .signOut actor target) (hid : target.getD actor.id = id)
    (hok : (a.step out (a.after w before)).1.isOk = true)
    (hsince : ∀ q ∈ a.trace (a.after w (before ++ [out])) since, q.mark? a id ≠ some false)
    (hs : s.operation = .refresh token) :
    ∃ e, (a.step s (a.after w (before ++ out :: since))).1 = .error e := by
  obtain ⟨r, -, -, -, -, ht⟩ := hi
  have hmark : (a.record out (a.after w before)).mark? a id = some true := by
    rw [mark?_record, hout]
    exact if_pos ⟨hok, hid⟩
  rw [step, hs, Operation.perform, Action.perform_map]
  rcases hx : (a.tokens.refresh token).perform s.moment (a.after w (before ++ out :: since)) with
    ⟨e | p, v⟩
  · exact ⟨e, rfl⟩
  · -- an exchange that succeeds has found the user of the token, and without the mark
    obtain ⟨-, i, u, -, hv, -, hu, hf, -⟩ := Tokens.refresh_inversion hx
    rw [ht] at hv
    obtain rfl := RefreshToken.eq_of_verify_sign (RefreshToken.nonce_ne_empty _ _) hv
    cases hf.symm.trans (isForceLogin_of_signed_out hmark hsince hu)

/-- A pair is issued, its user is signed out, asks for a one-time code and comes with the refresh
token. -/
theorem error_of_signed_out_code :
    let a : Accounts := ⟨⟨⟨"secret", .hs256⟩, 60, 120⟩, {}, 4, 16⟩
    let d : Draws := .ofSeed 0
    let u : User := (NewUser.customer (.email "a@b")).toUser 1
    let w := Action.worldOf (.memory (.new 2)) (.memory (MemoryStore.empty.insertUser u)) .log
    let issue : Step := ⟨0, d, .issue 1 .customer false⟩
    let out : Step := ⟨1, d, .signOut u none⟩
    let request : Step := ⟨2, d, .requestSignInCode (.email "a@b")⟩
    let again : Step := ⟨3, d, .refresh (a.tokens.minted 1 issue.moment)⟩
    ∃ e, (a.step again (a.after w [issue, out, request])).1 = .error e := by
  intro a d u w issue out request again
  have hissued : (a.record issue w).Issues a 1 (a.tokens.minted 1 issue.moment) :=
    issues_of_hasRoom rfl rfl rfl
  refine a.error_of_signed_out w [issue] out [request] again
    ⟨_, List.mem_singleton_self _, hissued⟩ rfl rfl rfl (fun q hq => ?_) rfl
  rw [List.mem_singleton.1 hq]
  exact nofun

/-- What takes the mark away makes the refresh tokens of the user good that were minted before:
those that are still live are exchanged. -/
theorem refresh_of_unmarked {k : MemoryCache} {m : Moment} {token e : String} {expiry : Option Nat}
    (hmark : (a.record s w).mark? a id = some false) (hc : w.cache = .memory k) (hk : k.Within)
    (hl : k.live? m.now (Tokens.key token) = some ⟨.plain (Tokens.entryText e), expiry⟩)
    (hv : RefreshToken.verify a.tokens.signer token = .ok id) (he : Tokens.entryUser? e = some id)
    (hnew : ∀ user, token ≠ a.tokens.minted user s.moment) (hle : s.now ≤ m.now) :
    ∃ p, ((a.tokens.refresh token).perform m (a.step s w).2).1 = .ok p := by
  have hmarks := a.step_marks s w id
  rw [hmark] at hmarks
  obtain ⟨u, hu, hf⟩ := hmarks
  have hop : s.operation.exchanged? ≠ some token := by
    intro h
    rw [mark?_record] at hmark
    cases hop : s.operation <;> rw [hop] at h hmark <;> cases h
    cases hmark
  obtain ⟨d, hd, hdw, hleft⟩ := s.operation.leaves_entry a w hop hnew k hc hk
  have hlive := (hleft _ rfl m.now hle).trans hl
  exact ⟨_, (Tokens.refresh_of_mayExchange hd hdw ⟨⟨e, expiry, id, hlive, hv, he, hu⟩, hf⟩).1⟩

/-- The mark is all that a sign-out leaves behind: the user comes back with a profile, and then the
refresh token from before the sign-out is exchanged after all. -/
theorem refresh_after_signing_in :
    let a : Accounts := ⟨⟨⟨"secret", .hs256⟩, 60, 120⟩, {}, 4, 16⟩
    let u : User := (NewUser.customer (.email "a@b")).toUser 1
    let w := Action.worldOf (.memory (.new 2)) (.memory (MemoryStore.empty.insertUser u)) .log
    let issue : Step := ⟨0, .ofSeed 0, .issue 1 .customer false⟩
    let out : Step := ⟨1, .ofSeed 1, .signOut u none⟩
    let signIn : Step :=
      ⟨2, .ofSeed 2, .signInWithProfile ⟨some "a@b", none, none, none, true⟩⟩
    let again : Step := ⟨3, .ofSeed 3, .refresh (a.tokens.minted 1 issue.moment)⟩
    (a.record issue w).Issues a 1 (a.tokens.minted 1 issue.moment) ∧
      (a.step out (a.after w [issue])).1 = .ok (.flag true) ∧
      ∃ p, (a.step again (a.after w [issue, out, signIn])).1 = .ok (.pair p) := by
  intro a u w issue out signIn again
  let key := Tokens.key (a.tokens.minted 1 issue.moment)
  let entry := a.tokens.noted 1 .customer issue.moment
  let k : MemoryCache := ((MemoryCache.new 2).makeRoom issue.now key).put key entry
  have hk : (a.after w [issue, out]).cache = .memory k :=
    (a.tokens.issue_of_hasRoom (m := issue.moment) (w := w) 1 .customer false rfl rfl).2
  have hkw : k.Within :=
    MemoryCache.within_put (MemoryCache.within_makeRoom (MemoryCache.within_new 2)) _ rfl
  have hlive : k.live? again.moment.now key = some entry := by
    rw [MemoryCache.live?_put_self, Option.filter_some, if_pos]
    show decide (3 < 0 + 120 * 1000000000) = true
    decide
  have hfits : RefreshToken.Fits 1 := by decide
  have hv := RefreshToken.verify_sign (s := a.tokens.signer) hfits
    (RefreshToken.nonce_ne_empty (.ofSeed 0) 0)
  have hmark : (a.record signIn (a.after w [issue, out])).mark? a 1 = some false := rfl
  obtain ⟨p, hp⟩ : ∃ p, ((a.tokens.refresh (a.tokens.minted 1 issue.moment)).perform again.moment
      (a.after w [issue, out, signIn])).1 = .ok p :=
    refresh_of_unmarked hmark hk hkw hlive hv (Tokens.entryUser?_entry hfits .customer)
      (fun _ => Tokens.minted_ne (by decide)) (Nat.le_succ 2)
  refine ⟨issues_of_hasRoom rfl rfl rfl, rfl, p, ?_⟩
  rw [step, Operation.perform, Action.perform_map, hp]
  rfl

end Accounts

end AuthCore
