import AuthCore.Notify.Delivery

/-!
# Reasoning about actions

How an action composed of others is performed, and what its parts may do to the cache and the store.
A `Frame` is a relation between the worlds before and after that passes on from step to step, so an
action whose parts keep a frame keeps it as well: what an operation leaves alone is read off its
parts. No frame looks at the log, the network or the outbox.

What the end of an action achieves is told by what it ensures (`Action.Ensures`). A frame that
enters such a statement may be used up before the end is reached (`Ensures.bind`).
-/

namespace AuthCore

variable {α β : Type}

namespace Action

variable {m : Moment} {w w' : World} {e : Error}

/-! ### Performing -/

@[simp] theorem perform_pure (a : α) : (pure a : Action α).perform m w = (.ok a, w) := rfl

theorem perform_bind (x : Action α) (f : α → Action β) :
    (x >>= f).perform m w =
      match x.perform m w with
      | (.ok a, w) => (f a).perform m w
      | (.error e, w) => (.error e, w) := by
  unfold perform
  rw [ReaderT.run_bind, ExceptT.run_bind, StateT.run_bind]
  show (match (x.run m).run.run w with | (a, s) => _) = _
  rcases (x.run m).run.run w with ⟨_ | a, w'⟩ <;> rfl

theorem perform_bind_ok {x : Action α} {a : α} (h : x.perform m w = (.ok a, w'))
    (f : α → Action β) : (x >>= f).perform m w = (f a).perform m w' := by
  rw [perform_bind, h]

theorem perform_bind_error {x : Action α} (h : x.perform m w = (.error e, w'))
    (f : α → Action β) : (x >>= f).perform m w = (.error e, w') := by
  rw [perform_bind, h]

/-- A composed action succeeds if its parts do. -/
theorem perform_bind_eq_ok {x : Action α} {f : α → Action β} {b : β} :
    (x >>= f).perform m w = (.ok b, w') ↔
      ∃ a v, x.perform m w = (.ok a, v) ∧ (f a).perform m v = (.ok b, w') := by
  rw [perform_bind]
  constructor
  · intro h
    rcases hx : x.perform m w with ⟨_ | a, v⟩ <;> rw [hx] at h
    · cases h
    · exact ⟨a, v, rfl, h⟩
  · rintro ⟨a, v, hx, hf⟩
    rw [hx]
    exact hf

theorem perform_map (f : α → β) (x : Action α) :
    (f <$> x).perform m w = ((x.perform m w).1.map f, (x.perform m w).2) := by
  rw [map_eq_pure_bind, perform_bind]
  rcases x.perform m w with ⟨_ | a, w'⟩ <;> rfl

/-- A mapped action succeeds if the action does. -/
theorem perform_map_eq_ok {f : α → β} {x : Action α} {b : β} :
    (f <$> x).perform m w = (.ok b, w') ↔ ∃ a, x.perform m w = (.ok a, w') ∧ f a = b := by
  rw [perform_map]
  rcases x.perform m w with ⟨_ | a, v⟩
  · exact iff_of_false nofun fun ⟨_, h, _⟩ => nomatch h
  · constructor
    · intro h
      obtain ⟨hb, rfl⟩ := Prod.mk.inj h
      exact ⟨a, rfl, Except.ok.inj hb⟩
    · rintro ⟨_, h, rfl⟩
      obtain ⟨ha, rfl⟩ := Prod.mk.inj h
      rw [← Except.ok.inj ha]
      rfl

@[simp] theorem perform_read : (read : Action Moment).perform m w = (.ok m, w) := rfl

@[simp] theorem perform_log (v : Event) :
    (log v).perform m w = (.ok (), { w with log := w.log ++ [v] }) := rfl

@[simp] theorem perform_reject (r : AuthError) :
    (reject r : Action α).perform m w = (.error (.auth r), w) := rfl

theorem perform_require (b : Bool) (r : AuthError) :
    (require b r).perform m w = (if b then .ok () else .error (.auth r), w) := by
  cases b <;> rfl

@[simp] theorem perform_ofAnswer (r : Answer α) : (ofAnswer r).perform m w = (r, w) := rfl

@[simp] theorem perform_query (f : Store → Answer α) :
    (query f).perform m w = (f w.store, w) := rfl

@[simp] theorem perform_change (f : Store → Answer α × Store) :
    (change f).perform m w = ((f w.store).1, { w with store := (f w.store).2 }) := rfl

@[simp] theorem perform_cached (f : Nat → Cache → Except CacheFault α × Cache) :
    (cached f).perform m w =
      ((f m.now w.cache).1.mapError .cache, { w with cache := (f m.now w.cache).2 }) := rfl

theorem perform_cacheSet (key text : String) (ttl : Option Nat) :
    (cacheSet key text ttl).perform m w =
      ((w.cache.set key text ttl m.now).1.mapError .cache,
        { w with
          cache := (w.cache.set key text ttl m.now).2
          log := w.log ++ writeEvents key w.cache true (w.cache.set key text ttl m.now).1 }) := rfl

theorem perform_cacheCreate (key : String) (fields : List (String × String)) (ttl : Nat) :
    (cacheCreate key fields ttl).perform m w =
      ((w.cache.createHash key fields ttl m.now).1.mapError .cache,
        { w with
          cache := (w.cache.createHash key fields ttl m.now).2
          log := w.log ++
            writeEvents key w.cache false (w.cache.createHash key fields ttl m.now).1 }) := rfl

theorem perform_send (r : Request) :
    (send r).perform m w = (.ok (w.network.send r).1, { w with network := (w.network.send r).2 }) :=
  rfl

theorem perform_tryCatch (x : Action α) (handle : Error → Action α) :
    (tryCatch x handle).perform m w =
      match x.perform m w with
      | (.ok a, w) => (.ok a, w)
      | (.error e, w) => (handle e).perform m w := by
  have h : (tryCatch x handle).run m = tryCatch (x.run m) fun e => (handle e).run m := rfl
  unfold perform
  rw [h, ExceptT.run_tryCatch, StateT.run_bind]
  show (match (x.run m).run.run w with | (a, s) => _) = _
  rcases (x.run m).run.run w with ⟨_ | a, w'⟩ <;> rfl

/-! ### Succeeding -/

theorem require_eq_ok {b : Bool} {r : AuthError} {u : Unit} :
    (require b r).perform m w = (.ok u, w') ↔ b = true ∧ w' = w := by
  cases b with
  | true => exact ⟨fun h => ⟨rfl, (Prod.mk.inj h).2.symm⟩, fun h => h.2 ▸ rfl⟩
  | false => exact ⟨fun h => absurd (Prod.mk.inj h).1 nofun, fun h => absurd h.1 nofun⟩

theorem orReject_eq_ok {r : AuthError} {o : Option α} {a : α} :
    (orReject r o).perform m w = (.ok a, w') ↔ o = some a ∧ w' = w := by
  cases o with
  | none => exact ⟨fun h => absurd (Prod.mk.inj h).1 nofun, fun h => absurd h.1 nofun⟩
  | some b =>
    refine ⟨fun h => ?_, fun h => ?_⟩
    · exact ⟨congrArg some (Except.ok.inj (Prod.mk.inj h).1), (Prod.mk.inj h).2.symm⟩
    · rw [Option.some.inj h.1, h.2]
      rfl

theorem ofAnswer_eq_ok {r : Answer α} {a : α} :
    (ofAnswer r).perform m w = (.ok a, w') ↔ r = .ok a ∧ w' = w := by
  rw [perform_ofAnswer, Prod.mk.injEq, eq_comm (a := w)]

theorem query_eq_ok {f : Store → Answer α} {a : α} :
    (query f).perform m w = (.ok a, w') ↔ f w.store = .ok a ∧ w' = w := by
  rw [perform_query, Prod.mk.injEq, eq_comm (a := w)]

theorem cached_eq_ok {f : Nat → Cache → Except CacheFault α × Cache} {a : α} :
    (cached f).perform m w = (.ok a, w') ↔
      (f m.now w.cache).1 = .ok a ∧ w' = { w with cache := (f m.now w.cache).2 } := by
  rw [perform_cached, Prod.mk.injEq, eq_comm (b := w')]
  refine and_congr_left fun _ => ?_
  cases (f m.now w.cache).1 with
  | error e => exact iff_of_false nofun nofun
  | ok b =>
    constructor
    · exact fun h => congrArg Except.ok (Except.ok.inj h)
    · exact fun h => congrArg Except.ok (Except.ok.inj h)

/-- Fields were put into the cache, or not, if the cache says so. -/
theorem createHash_of_cacheCreate {key : String} {fields : List (String × String)} {ttl : Nat}
    {b : Bool} (h : (cacheCreate key fields ttl).perform m w = (.ok b, w')) :
    w.cache.createHash key fields ttl m.now = (.ok b, w'.cache) := by
  rw [perform_cacheCreate] at h
  obtain ⟨hanswer, rfl⟩ := Prod.mk.inj h
  cases hr : (w.cache.createHash key fields ttl m.now).1 with
  | error e => rw [hr] at hanswer; cases hanswer
  | ok b' =>
    rw [hr] at hanswer
    obtain rfl := Except.ok.inj hanswer
    exact Prod.ext hr rfl

end Action

/-- What may happen to the cache and the store. -/
structure Frame where
  /-- Whether a world may become another at a moment. -/
  Allows : Moment → World → World → Prop
  /-- What leaves the cache and the store alone is always allowed. -/
  outside : ∀ {m w w'}, w'.cache = w.cache → w'.store = w.store → Allows m w w'
  /-- What is allowed twice is allowed at once. -/
  trans : ∀ {m u v w}, Allows m u v → Allows m v w → Allows m u w

namespace Frame

variable {F : Frame} {x : Action α}

/-- An action does no more than a frame allows, whether it succeeds or fails. -/
def Keeps (F : Frame) (x : Action α) : Prop := ∀ m w, F.Allows m w (x.perform m w).2

/-- The cache and the store stay as they are. -/
def same : Frame where
  Allows _ w w' := w'.cache = w.cache ∧ w'.store = w.store
  outside hc hs := ⟨hc, hs⟩
  trans h h' := ⟨h'.1.trans h.1, h'.2.trans h.2⟩

theorem refl (m : Moment) (w : World) : F.Allows m w w := F.outside rfl rfl

theorem Keeps.of_same (h : same.Keeps x) : F.Keeps x := fun m w => F.outside (h m w).1 (h m w).2

/-! ### Composed actions -/

theorem keeps_pure (a : α) : F.Keeps (pure a) := fun m w => F.refl m w

theorem Keeps.bind {f : α → Action β} (hx : F.Keeps x) (hf : ∀ a, F.Keeps (f a)) :
    F.Keeps (x >>= f) := by
  intro m w
  have h := hx m w
  rw [Action.perform_bind]
  rcases hw : x.perform m w with ⟨e | a, w'⟩ <;> rw [hw] at h
  · exact h
  · exact F.trans h (hf a m w')

theorem Keeps.ite {c : Prop} [Decidable c] {y : Action α} (hx : F.Keeps x) (hy : F.Keeps y) :
    F.Keeps (if c then x else y) := by
  split
  · exact hx
  · exact hy

theorem Keeps.map (f : α → β) (hx : F.Keeps x) : F.Keeps (f <$> x) := by
  intro m w
  rw [Action.perform_map]
  exact hx m w

theorem Keeps.tryCatch {handle : Error → Action α} (hx : F.Keeps x)
    (hh : ∀ e, F.Keeps (handle e)) : F.Keeps (tryCatch x handle) := by
  intro m w
  have h := hx m w
  rw [Action.perform_tryCatch]
  rcases hw : x.perform m w with ⟨e | a, w'⟩ <;> rw [hw] at h
  · exact F.trans h (hh e m w')
  · exact h

theorem keeps_forM {f : β → Action PUnit} (h : ∀ b, F.Keeps (f b)) (bs : List β) :
    F.Keeps (bs.forM f) := by
  induction bs with
  | nil => exact keeps_pure _
  | cons b bs ih => exact (h b).bind fun _ => ih

/-! ### Single actions -/

theorem keeps_read : F.Keeps read := fun m w => F.refl m w

theorem keeps_get : F.Keeps get := fun m w => F.refl m w

theorem keeps_modify {f : World → World} (hc : ∀ w, (f w).cache = w.cache)
    (hs : ∀ w, (f w).store = w.store) : F.Keeps (modify f) :=
  fun _ w => F.outside (hc w) (hs w)

theorem keeps_log (e : Event) : F.Keeps (Action.log e) := fun _ _ => F.outside rfl rfl

theorem keeps_throw (e : Error) : F.Keeps (throw e : Action α) := fun m w => F.refl m w

theorem keeps_reject (e : AuthError) : F.Keeps (Action.reject e : Action α) :=
  fun m w => F.refl m w

theorem keeps_require (b : Bool) (e : AuthError) : F.Keeps (Action.require b e) := by
  cases b with
  | true => exact keeps_pure ()
  | false => exact keeps_reject e

theorem keeps_orReject (e : AuthError) (o : Option α) : F.Keeps (Action.orReject e o) := by
  cases o with
  | some a => exact keeps_pure a
  | none => exact keeps_reject e

theorem keeps_ofAnswer (r : Answer α) : F.Keeps (Action.ofAnswer r) := fun m w => F.refl m w

theorem keeps_query (f : Store → Answer α) : F.Keeps (Action.query f) := fun m w => F.refl m w

theorem keeps_send (r : Request) : F.Keeps (Action.send r) := fun _ _ => F.outside rfl rfl

theorem keeps_fetch (r : Request) : F.Keeps (Action.fetch r) := by
  unfold Action.fetch
  split
  · refine (keeps_send r).bind fun o => ?_
    cases o with
    | some a => exact keeps_pure a
    | none => exact keeps_throw _
  · exact keeps_throw _

theorem keeps_post (c : NotifierConfig) (recipient : String) (message : Message) :
    F.Keeps (Notifier.post c recipient message) := by
  unfold Notifier.post
  cases c.endpoint message.channel with
  | none => exact keeps_throw _
  | some url =>
    refine (keeps_fetch _).bind fun response => ?_
    split
    · exact keeps_log _
    · exact keeps_throw _

theorem keeps_deliver (n : Notifier) (recipient : String) (message : Message) :
    F.Keeps (n.deliver recipient message) := by
  unfold Notifier.deliver
  cases n with
  | outbox failure =>
    refine Keeps.bind (keeps_modify ?_ ?_) fun _ => ?_
    · exact fun _ => rfl
    · exact fun _ => rfl
    · cases failure with
      | some e => exact keeps_throw e
      | none => exact keeps_pure ()
  | log => exact keeps_log _
  | webhook c => exact keeps_post c recipient message

/-- What a frame allows may happen before, and a failure after it is one of the whole; what happens
to the log in the end does not matter. -/
structure Enters (F : Frame) (Q : Moment → World → Answer α → World → Prop) : Prop where
  before : ∀ {m u v w r}, F.Allows m u v → Q m v r w → Q m u r w
  error : ∀ {m u v e}, F.Allows m u v → Q m u (.error e) v
  logged : ∀ {m u v r es}, Q m u r v → Q m u r { v with log := es }

theorem enters_allows : F.Enters fun m u (_ : Answer α) w => F.Allows m u w where
  before := F.trans
  error h := h
  logged h := F.trans h (F.outside rfl rfl)

end Frame

/-! ### What an action ensures -/

namespace Action

variable {F : Frame} {Q : Moment → World → Answer α → World → Prop} {x : Action α}

/-- The worlds before and after an action and its answer fit together. -/
def Ensures (Q : Moment → World → Answer α → World → Prop) (x : Action α) : Prop :=
  ∀ m w, Q m w (x.perform m w).1 (x.perform m w).2

theorem Ensures.bind {y : Action β} {f : β → Action α} (hQ : F.Enters Q) (hy : F.Keeps y)
    (hf : ∀ b, (f b).Ensures Q) : (y >>= f).Ensures Q := by
  intro m w
  have h := hy m w
  rw [perform_bind]
  rcases hw : y.perform m w with ⟨e | b, w'⟩ <;> rw [hw] at h
  · exact hQ.error h
  · exact hQ.before h (hf b m w')

theorem ensures_reject (hQ : F.Enters Q) (e : AuthError) : (reject e : Action α).Ensures Q :=
  fun m w => hQ.error (F.refl m w)

/-- Something is logged about a successful answer. -/
theorem Ensures.logged (hQ : F.Enters Q) (hx : x.Ensures Q) (e : α → Event) :
    (do let a ← x; log (e a); return a).Ensures Q := by
  intro m w
  have h := hx m w
  rw [perform_bind]
  rcases hw : x.perform m w with ⟨_ | a, w'⟩ <;> rw [hw] at h
  · exact h
  · exact hQ.logged h

theorem ensures_map {Q : Moment → World → Answer β → World → Prop} {f : α → β} :
    (f <$> x).Ensures Q ↔ x.Ensures fun m u r w => Q m u (r.map f) w := by
  simp only [Ensures, perform_map]

end Action

theorem Frame.Enters.map {F : Frame} {Q : Moment → World → Answer β → World → Prop}
    (hQ : F.Enters Q) (f : α → β) : F.Enters fun m u (r : Answer α) w => Q m u (r.map f) w where
  before h h' := hQ.before h h'
  error h := hQ.error h
  logged h := hQ.logged h

end AuthCore
