import AuthCore.Proofs.Store.Keyed
import AuthCore.Proofs.Token.Exchange

/-!
# The ledger of refresh tokens

Over a run of operations that starts with an empty memory cache, the live entries of refresh tokens
are those of the pairs that were answered, have not been exchanged and have not expired. `Ledger` is
this invariant between the record of a run and the world it has led to. It decides every exchange:
a refresh token is exchanged at most once, only for a pair of the user for whom it was issued, and
nothing but its age, an earlier exchange and the state of that user can prevent it.

No two pairs that were answered may have the same refresh token: the random nonces see to that.
-/

namespace AuthCore

namespace Operation

/-- The refresh token that an operation would exchange. -/
def exchanged? : Operation → Option String
  | refresh token => some token
  | _ => none

end Operation

namespace Record

/-- The pair of tokens that was answered. -/
def pair? (r : Record) : Option TokenPair := answeredPair? r.answer

/-- The refresh token that was answered. -/
def minted? (r : Record) : Option String := r.pair?.map (·.refreshToken)

/-- The refresh token that was exchanged. -/
def spent? (r : Record) : Option String := r.pair?.bind fun _ => r.step.operation.exchanged?

/-- A refresh token was issued to a user: the pair that was answered is one for that user. -/
def Issues (a : Accounts) (r : Record) (user : Int) (token : String) : Prop :=
  ∃ role limited, r.pair? = some (a.tokens.pair user role limited r.step.moment) ∧
    token = a.tokens.minted user r.step.moment

variable {a : Accounts} {r : Record} {user : Int} {token : String}

theorem Issues.minted?_eq (h : r.Issues a user token) : r.minted? = some token := by
  obtain ⟨role, limited, hp, rfl⟩ := h
  rw [minted?, hp]
  rfl

end Record

/-- What happened to the entries of refresh tokens in one operation. -/
def Tokens.Booked (t : Tokens) (taken : Option String) (m : Moment) (u : World) (r : Answer Result)
    (w : World) : Prop :=
  ∀ c, u.cache = .memory c → c.Within → ∃ d, w.cache = .memory d ∧ d.Within ∧
    match answeredPair? r with
    | some p => t.Notes m taken c d p
    | none => ∀ token later, m.now ≤ later →
        d.live? later (key token) = c.live? later (key token)

namespace Tokens

variable {t : Tokens} {taken : Option String} {m : Moment} {u v w : World} {r : Answer Result}

theorem Booked.of_leaving (h : leaving.Allows m u w) (hr : answeredPair? r = none) :
    t.Booked taken m u r w := by
  intro c hc hw
  obtain ⟨d, hd, hdw, hcd⟩ := h c hc hw
  rw [hr]
  exact ⟨d, hd, hdw, fun token later hl => hcd (key token) ⟨token, rfl⟩ later hl⟩

theorem enters_booked : leaving.Enters (t.Booked taken) where
  before h h' c hc hw := by
    obtain ⟨d, hd, hdw, hcd⟩ := h c hc hw
    obtain ⟨e, he, hew, hde⟩ := h' d hd hdw
    refine ⟨e, he, hew, ?_⟩
    split at hde
    next =>
      obtain ⟨user, role, limited, hp, hde⟩ := hde
      refine ⟨user, role, limited, hp, fun token later hl => ?_⟩
      rw [hde token later hl, hcd (key token) ⟨token, rfl⟩ later hl]
    next =>
      exact fun token later hl => (hde token later hl).trans (hcd _ ⟨token, rfl⟩ later hl)
  error h := .of_leaving h rfl
  logged h := h

theorem issue_booked (user : Int) (role : Role) (limited : Bool) :
    (Result.pair <$> t.issue user role limited).Ensures (t.Booked none) := by
  refine Action.ensures_map.2 fun m w c hc hw => ?_
  obtain ⟨d, hd, hdw, hn⟩ := t.issue_notes (m := m) user role limited hc hw
  refine ⟨d, hd, hdw, ?_⟩
  cases hr : ((t.issue user role limited).perform m w).1 with
  | error e => rw [hr] at hn; exact hn
  | ok p => rw [hr] at hn; exact hn

theorem refresh_booked (token : String) :
    (Result.pair <$> t.refresh token).Ensures (t.Booked (some token)) := by
  refine Action.ensures_map.2 fun m w => ?_
  rcases hx : (t.refresh token).perform m w with ⟨e | p, w'⟩
  · have hl := t.refresh_leaves (K := IsKey) token m w
    rw [hx] at hl
    exact .of_leaving (hl.resolve_left fun ⟨_, h⟩ => by cases h) rfl
  · intro c hc hw
    obtain ⟨user, hm⟩ := mayExchange_of_refresh hc hx
    obtain ⟨ha, d, hd, hdw, hn⟩ := refresh_of_mayExchange hc hw hm
    rw [hx] at ha hd
    rw [show p = _ from Except.ok.inj ha]
    exact ⟨d, hd, hdw, hn⟩

end Tokens

/-- An operation that answers a pair notes it, an exchange takes the old entry away, and nothing
else happens to the entries of refresh tokens. -/
theorem Operation.booked (a : Accounts) (op : Operation) :
    (op.perform a).Ensures (a.tokens.Booked op.exchanged?) := by
  have hkey (u : Username) : ¬ Tokens.IsKey (Otp.key u) := fun ⟨token, h⟩ =>
    Tokens.key_ne_otpKey token u h.symm
  by_cases hop : ∃ token, op = refresh token
  · obtain ⟨token, rfl⟩ := hop
    exact Tokens.refresh_booked token
  · have hx : op.exchanged? = none := by
      cases op with
      | refresh token => exact absurd ⟨token, rfl⟩ hop
      | _ => rfl
    rw [hx]
    exact ensures_perform Tokens.enters_booked op Frame.allowsWrites_keys.groups
      (fun _ => Frame.allowsWrites_keys)
      (fun name _ => Frame.allowsCode_keys (hkey name)) Tokens.issue_booked
      (fun token h => absurd ⟨token, h⟩ hop) Tokens.Booked.of_leaving

/-- The record of a run and the cache it has led to fit together. -/
structure Ledger (a : Accounts) (records : List Record) (now : Nat) (c : MemoryCache) : Prop where
  within : c.Within
  sound : ∀ token later e, now ≤ later → c.live? later (Tokens.key token) = some e →
    ∃ r ∈ records, ∃ user role, r.Issues a user token ∧ (∀ q ∈ records, q.spent? ≠ some token) ∧
      e = a.tokens.noted user role r.step.moment
  complete : ∀ token later, now ≤ later → ∀ r ∈ records, ∀ user, r.Issues a user token →
    (∀ q ∈ records, q.spent? ≠ some token) →
    later < r.step.now + seconds a.tokens.refreshLifetime →
    ∃ role, c.live? later (Tokens.key token) = some (a.tokens.noted user role r.step.moment)
  issued : ∀ q ∈ records, ∀ token, q.spent? = some token →
    token ∈ records.filterMap Record.minted?
  once : (records.filterMap Record.spent?).Nodup
  someone : ∀ r ∈ records, ∀ token, r.minted? = some token → ∃ user, r.Issues a user token

namespace Ledger

variable {a : Accounts} {records : List Record} {now : Nat} {c : MemoryCache}

theorem new (a : Accounts) (entries : Nat) : Ledger a [] 0 (.new entries) where
  within := MemoryCache.within_new entries
  sound _ _ _ _ h := nomatch h
  complete _ _ _ _ h := nomatch h
  issued _ h := nomatch h
  once := List.nodup_nil
  someone _ h := nomatch h

variable {d : MemoryCache} {r : Record}

/-- A step that answers no pair leaves the ledger as it is. -/
theorem keep (h : Ledger a records now c) (hp : r.pair? = none) (hd : d.Within)
    (hnow : now ≤ r.step.now) (hl : ∀ token later, r.step.now ≤ later →
      d.live? later (Tokens.key token) = c.live? later (Tokens.key token)) :
    Ledger a (records ++ [r]) r.step.now d := by
  have hs : r.spent? = none := by rw [Record.spent?, hp, Option.bind_none]
  have hm : r.minted? = none := by rw [Record.minted?, hp, Option.map_none]
  constructor
  case within => exact hd
  case sound =>
    intro token later e hlater he
    rw [hl token later hlater] at he
    obtain ⟨q, hq, user, role, hi, hu, rfl⟩ := h.sound token later e (hnow.trans hlater) he
    refine ⟨q, List.mem_append_left _ hq, user, role, hi, forall_mem_concat.2 ⟨hu, ?_⟩, rfl⟩
    rw [hs]
    exact nofun
  case complete =>
    intro token later hlater
    rw [hl token later hlater]
    refine forall_mem_concat.2 ⟨fun q hq user hi hu ht => ?_, fun user hi => ?_⟩
    · exact h.complete token later (hnow.trans hlater) q hq user hi (forall_mem_concat.1 hu).1 ht
    · rw [hi.minted?_eq] at hm
      cases hm
  case issued =>
    rw [List.filterMap_append, List.filterMap_cons_none hm, List.filterMap_nil, List.append_nil]
    refine forall_mem_concat.2 ⟨h.issued, ?_⟩
    rw [hs]
    exact nofun
  case once =>
    rw [List.filterMap_append, List.filterMap_cons_none hs, List.filterMap_nil, List.append_nil]
    exact h.once
  case someone =>
    refine forall_mem_concat.2 ⟨h.someone, ?_⟩
    rw [hm]
    exact nofun

/-- Whatever token has a live entry was issued and has not been exchanged. -/
theorem issued_of_live (h : Ledger a records now c) {token : String} {later : Nat} {e : CacheEntry}
    (hl : now ≤ later) (he : c.live? later (Tokens.key token) = some e) :
    token ∈ records.filterMap Record.minted? ∧ ∀ q ∈ records, q.spent? ≠ some token := by
  obtain ⟨q, hq, user, role, hi, hu, -⟩ := h.sound token later e hl he
  exact ⟨List.mem_filterMap.2 ⟨q, hq, hi.minted?_eq⟩, hu⟩

/-- A token that is answered is new, and nobody has exchanged it. -/
theorem unspent_of_new (h : Ledger a records now c) {user : Int} {token : String}
    (hi : r.Issues a user token)
    (hold : ∀ t, r.spent? = some t → t ∈ records.filterMap Record.minted?)
    (hnd : ((records ++ [r]).filterMap Record.minted?).Nodup) :
    token ∉ records.filterMap Record.minted? ∧ ∀ q ∈ records ++ [r], q.spent? ≠ some token := by
  rw [List.filterMap_append, List.filterMap_cons_some hi.minted?_eq] at hnd
  have hfresh : token ∉ records.filterMap Record.minted? := fun hmem =>
    (List.nodup_append.1 hnd).2.2 _ hmem _ List.mem_cons_self rfl
  exact ⟨hfresh, forall_mem_concat.2
    ⟨fun q hq hs => hfresh (h.issued q hq token hs), fun hs => hfresh (hold token hs)⟩⟩

/-- A step that answers a pair adds it to the ledger. -/
theorem note (h : Ledger a records now c) {p : TokenPair} (hp : r.pair? = some p) (hd : d.Within)
    (hnow : now ≤ r.step.now)
    (hn : a.tokens.Notes r.step.moment r.step.operation.exchanged? c d p)
    (hlive : ∀ token, r.step.operation.exchanged? = some token →
      ∃ e, c.live? r.step.now (Tokens.key token) = some e)
    (hnd : ((records ++ [r]).filterMap Record.minted?).Nodup) :
    Ledger a (records ++ [r]) r.step.now d := by
  obtain ⟨user, role, limited, rfl, hl⟩ := hn
  have hs : r.spent? = r.step.operation.exchanged? := by rw [Record.spent?, hp, Option.bind_some]
  have hmine : r.Issues a user (a.tokens.minted user r.step.moment) := ⟨role, limited, hp, rfl⟩
  -- whatever this step exchanges was issued before, and nobody has exchanged it yet
  have hold (token : String) (ht : r.spent? = some token) :
      token ∈ records.filterMap Record.minted? ∧ ∀ q ∈ records, q.spent? ≠ some token := by
    obtain ⟨e, he⟩ := hlive token (hs.symm.trans ht)
    exact h.issued_of_live hnow he
  obtain ⟨hfresh, hunspent⟩ := h.unspent_of_new hmine (fun t ht => (hold t ht).1) hnd
  constructor
  case within => exact hd
  case sound =>
    intro token later e hlater he
    rw [hl token later hlater] at he
    split at he
    next htok =>
      have he' := (Option.filter_eq_some_iff.1 he).1
      exact ⟨r, List.mem_append_right _ (List.mem_singleton_self r), user, role, htok ▸ hmine,
        htok ▸ hunspent, (Option.some.inj he').symm⟩
    next htok =>
      split at he
      next => cases he
      next hx =>
        obtain ⟨q, hq, user', role', hi, hu, rfl⟩ := h.sound token later e (hnow.trans hlater) he
        exact ⟨q, List.mem_append_left _ hq, user', role', hi,
          forall_mem_concat.2 ⟨hu, hs ▸ hx⟩, rfl⟩
  case complete =>
    intro token later hlater
    rw [hl token later hlater]
    refine forall_mem_concat.2 ⟨fun q hq user' hi hu ht => ?_, fun user' hi _ ht => ?_⟩
    · obtain ⟨hu, hx⟩ := forall_mem_concat.1 hu
      have hne : token ≠ a.tokens.minted user r.step.moment := fun he =>
        hfresh (he ▸ List.mem_filterMap.2 ⟨q, hq, hi.minted?_eq⟩)
      rw [if_neg hne, if_neg (hs ▸ hx)]
      exact h.complete token later (hnow.trans hlater) q hq user' hi hu ht
    · have htok : token = a.tokens.minted user r.step.moment :=
        Option.some.inj (hi.minted?_eq.symm.trans hmine.minted?_eq)
      obtain ⟨-, -, -, ht'⟩ := hi
      have huser : user = user' := RefreshToken.sign_injective (htok.symm.trans ht')
      refine ⟨role, ?_⟩
      rw [if_pos htok, Option.filter_some, if_pos, huser]
      exact decide_eq_true ht
  case issued =>
    rw [List.filterMap_append]
    refine forall_mem_concat.2 ⟨fun q hq token hq' => ?_, fun token ht => ?_⟩
    · exact List.mem_append_left _ (h.issued q hq token hq')
    · exact List.mem_append_left _ (hold token ht).1
  case once =>
    rw [List.filterMap_append, List.nodup_append]
    refine ⟨h.once, ?_, fun token ht token' ht' he => ?_⟩
    · cases hr : r.spent? with
      | none => simp [hr]
      | some token => simp [hr]
    · subst he
      obtain ⟨q, hq, hqt⟩ := List.mem_filterMap.1 ht
      obtain ⟨q', hq', hqt'⟩ := List.mem_filterMap.1 ht'
      exact (hold token (List.mem_singleton.1 hq' ▸ hqt')).2 q hq hqt
  case someone =>
    exact forall_mem_concat.2 ⟨h.someone, fun token ht =>
      ⟨user, Option.some.inj (hmine.minted?_eq.symm.trans ht) ▸ hmine⟩⟩

/-- What a step exchanges is live when it is made. -/
theorem live_of_exchanged {s : Step} {w : World} (hc : w.cache = .memory c)
    (hp : (answeredPair? (a.step s w).1).isSome = true) {token : String}
    (ht : s.operation.exchanged? = some token) :
    ∃ e, c.live? s.now (Tokens.key token) = some e := by
  have hop : s.operation = .refresh token := by
    cases hop : s.operation with
    | refresh token' => rw [hop] at ht; exact congrArg _ (Option.some.inj ht)
    | _ => rw [hop] at ht; cases ht
  rw [Accounts.step, hop] at hp
  rw [Operation.perform, Action.perform_map] at hp
  rcases hx : (a.tokens.refresh token).perform s.moment w with ⟨_ | p, w'⟩
  · rw [hx] at hp
    cases hp
  · obtain ⟨user, ⟨e, expiry, id, hl, -⟩, -⟩ := Tokens.mayExchange_of_refresh hc hx
    exact ⟨_, hl⟩

/-- The ledger is kept from step to step. -/
theorem step (h : Ledger a records now c) (s : Step) {w : World} (hc : w.cache = .memory c)
    (hnow : now ≤ s.now)
    (hnd : ((records ++ [a.record s w]).filterMap Record.minted?).Nodup) :
    ∃ d, (a.step s w).2.cache = .memory d ∧ Ledger a (records ++ [a.record s w]) s.now d := by
  obtain ⟨d, hd, hdw, hx⟩ := Operation.booked a s.operation s.moment w c hc h.within
  refine ⟨d, hd, ?_⟩
  cases hp : answeredPair? ((s.operation.perform a).perform s.moment w).1 with
  | none =>
    rw [hp] at hx
    exact h.keep hp hdw hnow hx
  | some p =>
    rw [hp] at hx
    exact h.note hp hdw hnow hx
      (fun token ht => live_of_exchanged hc (Option.isSome_iff_exists.2 ⟨p, hp⟩) ht) hnd

variable {w w' : World} {s : Step} {token : String}

/-- A token that is exchanged was issued to the user who is found, and it is not too old. -/
theorem issued_of_refresh (h : Ledger a records now c) (hc : w.cache = .memory c)
    (hnow : now ≤ s.now) {p : TokenPair}
    (hp : (a.tokens.refresh token).perform s.moment w = (.ok p, w')) :
    ∃ r ∈ records, ∃ user u, r.Issues a user token ∧ (∀ q ∈ records, q.spent? ≠ some token) ∧
      s.now < r.step.now + seconds a.tokens.refreshLifetime ∧
      w.store.findById user = .ok (some u) ∧ u.isForceLogin = false ∧
      p = a.tokens.pair u.id u.role false s.moment := by
  obtain ⟨u, hm⟩ := Tokens.mayExchange_of_refresh hc hp
  have ha := (Tokens.refresh_of_mayExchange hc h.within hm).1
  rw [hp] at ha
  obtain ⟨⟨e, expiry, id, hl, hv, -, hu⟩, hf⟩ := hm
  obtain ⟨r, hr, user, role, hi, hunspent, hnoted⟩ := h.sound token s.now _ hnow hl
  have hlive := (MemoryCache.live?_eq_some_iff.1 hl).2
  rw [hnoted] at hlive
  have hid : id = user := by
    obtain ⟨-, -, -, ht⟩ := hi
    rw [ht] at hv
    exact RefreshToken.eq_of_verify_sign (RefreshToken.nonce_ne_empty _ _) hv
  exact ⟨r, hr, user, u, hi, hunspent, of_decide_eq_true hlive, hid ▸ hu, hf, Except.ok.inj ha⟩

/-- A token that was issued, has not been exchanged and is not too old can be exchanged. -/
theorem refresh_of_issued (h : Ledger a records now c) (hc : w.cache = .memory c)
    (hnow : now ≤ s.now) {r : Record} (hr : r ∈ records) {user : Int} (hi : r.Issues a user token)
    (hunspent : ∀ q ∈ records, q.spent? ≠ some token)
    (ht : s.now < r.step.now + seconds a.tokens.refreshLifetime) {u : User}
    (hu : w.store.findById user = .ok (some u)) (hf : u.isForceLogin = false)
    (hfit : RefreshToken.Fits user) :
    ((a.tokens.refresh token).perform s.moment w).1 =
      .ok (a.tokens.pair u.id u.role false s.moment) := by
  obtain ⟨role, hl⟩ := h.complete token s.now hnow r hr user hi hunspent ht
  have hv : RefreshToken.verify a.tokens.signer token = .ok user := by
    obtain ⟨-, -, -, htoken⟩ := hi
    rw [htoken]
    exact RefreshToken.verify_sign hfit (RefreshToken.nonce_ne_empty _ _)
  exact (Tokens.refresh_of_mayExchange hc h.within
    ⟨⟨_, _, user, hl, hv, Tokens.entryUser?_entry hfit role, hu⟩, hf⟩).1

end Ledger

section Run

variable {a : Accounts} {entries : Nat} {w : World}

/-- A run that starts with an empty cache keeps a ledger. -/
theorem Accounts.ledger_after (hw : w.cache = .memory (.new entries)) (steps : List Step)
    (hs : InOrder steps) (hnd : ((a.trace w steps).filterMap Record.minted?).Nodup) :
    ∃ c now, (a.after w steps).cache = .memory c ∧ Ledger a (a.trace w steps) now c ∧
      ∀ later, (∀ s ∈ steps, s.now ≤ later) → now ≤ later := by
  obtain ⟨now, hp, hnow⟩ := run_induction
    (P := fun records now v => (records.filterMap Record.minted?).Nodup →
      ∃ c, v.cache = .memory c ∧ Ledger a records now c)
    (fun _ => ⟨_, hw, Ledger.new a entries⟩)
    (fun records now v s hv hle hnd => by
      obtain ⟨c, hc, hl⟩ := hv (hnd.sublist ((List.sublist_append_left _ _).filterMap _))
      exact hl.step s hc hle hnd) steps hs
  obtain ⟨c, hc, hl⟩ := hp hnd
  exact ⟨c, now, hc, hl, hnow⟩

/-- Where a run has led, an exchange answers a pair exactly if the token was issued to a user by an
earlier operation, has not been exchanged since, is younger than its lifetime, and the user is there
and need not sign in again. The pair is one for that user, with the role that the user has now, and
not limited. No token of the run was exchanged twice, and whatever pair was answered was issued to
some user. Numbers of users have 32 bits. -/
theorem Accounts.refresh_iff (a : Accounts) (hw : w.cache = .memory (.new entries))
    (hk : w.store.Keyed) (steps : List Step) (s : Step) (token : String)
    (hop : s.operation = .refresh token) (hs : InOrder (steps ++ [s]))
    (hnd : ((a.trace w steps).filterMap Record.minted?).Nodup)
    (hfit : ∀ user u, (a.after w steps).store.findById user = .ok (some u) →
      RefreshToken.Fits user) :
    ((∃ p, (a.step s (a.after w steps)).1 = .ok (.pair p)) ↔
      ∃ r ∈ a.trace w steps, ∃ user, r.Issues a user token ∧
        (∀ q ∈ a.trace w steps, q.spent? ≠ some token) ∧
        s.now < r.step.now + seconds a.tokens.refreshLifetime ∧
        ∃ u, (a.after w steps).store.findById user = .ok (some u) ∧ u.isForceLogin = false) ∧
    (∀ p, (a.step s (a.after w steps)).1 = .ok (.pair p) →
      ∀ r ∈ a.trace w steps, ∀ user, r.Issues a user token →
        ∃ u, (a.after w steps).store.findById user = .ok (some u) ∧
          p = a.tokens.pair user u.role false s.moment) ∧
    ((a.trace w steps).filterMap Record.spent?).Nodup ∧
    ∀ r ∈ a.trace w steps, ∀ t, r.minted? = some t → ∃ user, r.Issues a user t := by
  have hs' := List.pairwise_append.1 hs
  obtain ⟨c, now, hc, hl, hnow⟩ := ledger_after hw steps hs'.1 hnd
  have hle : now ≤ s.now := hnow s.now fun q hq => hs'.2.2 q hq s (List.mem_singleton_self s)
  have hkeyed := keyed_after (a := a) hk steps
  have hstep : (a.step s (a.after w steps)).1 =
      ((a.tokens.refresh token).perform s.moment (a.after w steps)).1.map .pair := by
    rw [step, hop, Operation.perform, Action.perform_map]
  rcases hx : (a.tokens.refresh token).perform s.moment (a.after w steps) with ⟨e | p, w'⟩
  all_goals rw [hstep, hx]
  · refine ⟨⟨nofun, fun ⟨r, hr, user, hi, hunspent, ht, u, hu, hf⟩ => ?_⟩, nofun, hl.once,
      hl.someone⟩
    have ha := hl.refresh_of_issued hc hle hr hi hunspent ht hu hf (hfit user u hu)
    rw [hx] at ha
    cases ha
  · obtain ⟨r, hr, user, u, hi, hunspent, ht, hu, hf, rfl⟩ := hl.issued_of_refresh hc hle hx
    refine ⟨⟨fun _ => ⟨r, hr, user, hi, hunspent, ht, u, hu, hf⟩, fun _ => ⟨_, rfl⟩⟩, ?_, hl.once,
      hl.someone⟩
    rintro p hp q hq user' ⟨-, -, -, ht'⟩
    obtain ⟨-, -, -, ht⟩ := hi
    have huser : user = user' := RefreshToken.sign_injective (ht.symm.trans ht')
    rw [← Result.pair.inj (Except.ok.inj hp), hkeyed.id_eq hu, huser]
    exact ⟨u, huser ▸ hu, rfl⟩

/-- A user, a cache with a single place, and a token that is exchanged just in time. -/
theorem Accounts.refresh_iff_single :
    let a : Accounts := ⟨⟨⟨"secret", .hs256⟩, 60, 120⟩, {}, 4, 16⟩
    let d : Draws := ⟨id, id, id, id⟩
    let s : Store := (Store.memory .empty).createUser (.customer (.phone "+491234567")) |>.2
    let w := Action.worldOf (.memory (.new 1)) s .log
    let first : Step := ⟨0, d, .issue 1 .customer true⟩
    let second : Step := ⟨119999999999, d, .refresh (a.tokens.minted 1 first.moment)⟩
    ∃ p, (a.step second (a.after w [first])).1 = .ok (.pair p) := by
  intro a d s w first second
  have hi := (Tokens.issue_of_hasRoom (t := a.tokens) (m := first.moment) (w := w) 1 .customer true
    rfl rfl).1
  have hfirst : (a.record first w).pair? = some (a.tokens.pair 1 .customer true first.moment) := by
    show answeredPair? ((Result.pair <$> a.tokens.issue 1 .customer true).perform _ w).1 = _
    rw [Action.perform_map, hi]
    rfl
  have hempty : (Store.memory .empty).Keyed := fun _ _ h => nomatch h
  have hid : ((NewUser.customer (.phone "+491234567")).toUser 1).id = 1 := rfl
  have hk : s.Keyed := hempty.insert hid rfl
  have hstore : (a.after w [first]).store = s := rfl
  have hu : s.findById 1 = .ok (some ((NewUser.customer (.phone "+491234567")).toUser 1)) := rfl
  have hissued : (a.record first w).Issues a 1 (a.tokens.minted 1 first.moment) :=
    ⟨.customer, true, hfirst, rfl⟩
  have hunspent : ∀ q ∈ [a.record first w], q.spent? ≠ some (a.tokens.minted 1 first.moment) := by
    intro q hq
    rw [List.mem_singleton.1 hq, Record.spent?, hfirst]
    exact nofun
  have hnd : ([a.record first w].filterMap Record.minted?).Nodup := by
    rw [List.filterMap_cons_some hissued.minted?_eq]
    exact List.nodup_singleton _
  have hfit (user : Int) (u : User) (hu : s.findById user = .ok (some u)) :
      RefreshToken.Fits user := by
    have hget : (OrderedMap.insert .empty 1 _).get? user = some u := Except.ok.inj hu
    rw [OrderedMap.get?_insert] at hget
    split at hget
    next h1 => exact h1 ▸ by decide
    next => cases hget
  refine (a.refresh_iff rfl hk [first] second (a.tokens.minted 1 first.moment) rfl ?_ hnd
    (hstore ▸ hfit)).1.2
    ⟨a.record first w, List.mem_singleton_self _, 1, hissued, hunspent, ?_, _, hstore ▸ hu, rfl⟩
  · exact List.pairwise_pair.2 (Nat.zero_le _)
  · show 119999999999 < 0 + 120 * 1000000000
    decide

end Run

end AuthCore
