import AuthCore.Proofs.Account.Faults

/-!
# What actions log

An action adds events behind the log and leaves it to others how messages are delivered. What holds
of each of its events is told by a predicate that passes through its steps (`Action.Logs`). The
moment is given, since an event may name what was made of the random draws of that moment.
-/

namespace AuthCore

variable {α β : Type}

/-- From one world to the next, events of a kind were logged, and messages are delivered as
before. -/
structure World.Reports (P : Event → Prop) (w w' : World) : Prop where
  notifier : w'.notifier = w.notifier
  log : ∃ es, w'.log = w.log ++ es ∧ ∀ e ∈ es, P e

namespace World.Reports

variable {P : Event → Prop} {u v w : World}

theorem silent (hn : v.notifier = u.notifier) (hl : v.log = u.log) : Reports P u v :=
  ⟨hn, [], by rw [hl, List.append_nil], List.forall_mem_nil _⟩

theorem trans (h : Reports P u v) (h' : Reports P v w) : Reports P u w := by
  obtain ⟨hn, es, hl, hes⟩ := h
  obtain ⟨hn', es', hl', hes'⟩ := h'
  refine ⟨hn'.trans hn, es ++ es', ?_, List.forall_mem_append.2 ⟨hes, hes'⟩⟩
  rw [hl', hl, List.append_assoc]

theorem mono {Q : Event → Prop} (h : Reports P u v) (hPQ : ∀ e, P e → Q e) : Reports Q u v :=
  let ⟨hn, es, hl, hes⟩ := h
  ⟨hn, es, hl, fun e he => hPQ e (hes e he)⟩

end World.Reports

namespace Action

variable {P Q : Event → Prop} {m : Moment} {n : Notifier} {x : Action α}

/-- What an action logs at a moment, while messages are delivered in a given way, is of a kind. -/
def Logs (P : Event → Prop) (m : Moment) (n : Notifier) (x : Action α) : Prop :=
  ∀ w, w.notifier = n → World.Reports P w (x.perform m w).2

namespace Logs

/-- The second part of an action may rely on what the first one answers. -/
theorem bind_of_ok {f : α → Action β} (hx : x.Logs P m n)
    (hf : ∀ w a v, x.perform m w = (.ok a, v) → (f a).Logs P m n) : (x >>= f).Logs P m n := by
  intro w hw
  have h := hx w hw
  rw [perform_bind]
  rcases hxw : x.perform m w with ⟨e | a, v⟩ <;> rw [hxw] at h
  · exact h
  · exact h.trans (hf w a v hxw v (h.notifier.trans hw))

theorem bind {f : α → Action β} (hx : x.Logs P m n) (hf : ∀ a, (f a).Logs P m n) :
    (x >>= f).Logs P m n :=
  hx.bind_of_ok fun _ a _ _ => hf a

/-- What is read is the moment. -/
theorem read_bind {f : Moment → Action α} (h : (f m).Logs P m n) : (read >>= f).Logs P m n := h

/-- What is got is a world that delivers messages in the given way. -/
theorem get_bind {f : World → Action α} (h : ∀ w, w.notifier = n → (f w).Logs P m n) :
    (get >>= f).Logs P m n := fun w hw => h w hw w hw

theorem map (hx : x.Logs P m n) (f : α → β) : (f <$> x).Logs P m n := by
  intro w hw
  rw [perform_map]
  exact hx w hw

theorem ite {c : Prop} [Decidable c] {y : Action α} (hx : x.Logs P m n) (hy : y.Logs P m n) :
    (if c then x else y).Logs P m n := by
  split
  · exact hx
  · exact hy

/-- Only the errors that an action may answer are handled. -/
theorem tryCatch {E : Error → Prop} {handle : Error → Action α} (hx : x.Logs P m n)
    (he : x.Fails E) (hh : ∀ e, E e → (handle e).Logs P m n) :
    (tryCatch x handle).Logs P m n := by
  intro w hw
  have h := hx w hw
  have hfail := he m w
  rw [perform_tryCatch]
  rcases hxw : x.perform m w with ⟨e | a, v⟩ <;> rw [hxw] at h hfail
  · exact h.trans (hh e (hfail e rfl) v (h.notifier.trans hw))
  · exact h

theorem mono (hx : x.Logs P m n) (h : ∀ e, P e → Q e) : x.Logs Q m n :=
  fun w hw => (hx w hw).mono h

end Logs

theorem logs_pure (a : α) : (pure a : Action α).Logs P m n := fun _ _ => .silent rfl rfl

theorem logs_throw (e : Error) : (throw e : Action α).Logs P m n := fun _ _ => .silent rfl rfl

theorem logs_reject (r : AuthError) : (reject r : Action α).Logs P m n := logs_throw _

theorem logs_require (b : Bool) (r : AuthError) : (require b r).Logs P m n :=
  (logs_pure ()).ite (logs_reject r)

theorem logs_orReject (r : AuthError) (o : Option α) : (orReject r o).Logs P m n := by
  cases o with
  | some a => exact logs_pure a
  | none => exact logs_reject r

theorem logs_ofAnswer (r : Answer α) : (ofAnswer r).Logs P m n := fun _ _ => .silent rfl rfl

theorem logs_query (f : Store → Answer α) : (query f).Logs P m n := fun _ _ => .silent rfl rfl

theorem logs_change (f : Store → Answer α × Store) : (change f).Logs P m n :=
  fun _ _ => .silent rfl rfl

theorem logs_cached (f : Nat → Cache → Except CacheFault α × Cache) : (cached f).Logs P m n :=
  fun _ _ => .silent rfl rfl

theorem logs_send (r : Request) : (send r).Logs P m n := fun _ _ => .silent rfl rfl

theorem logs_log {e : Event} (h : P e) : (log e).Logs P m n :=
  fun _ _ => ⟨rfl, [e], rfl, List.forall_mem_singleton.2 h⟩

theorem logs_forM {f : β → Action PUnit} {bs : List β} (h : ∀ b ∈ bs, (f b).Logs P m n) :
    (bs.forM f).Logs P m n := by
  induction bs with
  | nil => exact logs_pure _
  | cons b bs ih =>
    obtain ⟨hb, hbs⟩ := List.forall_mem_cons.1 h
    exact hb.bind fun _ => ih hbs

theorem logs_fetch (r : Request) : (fetch r).Logs P m n := by
  refine Logs.ite ((logs_send r).bind fun o => ?_) (logs_throw _)
  cases o with
  | some a => exact logs_pure a
  | none => exact logs_throw _

end Action

/-- An event tells of a write to the cache at a key: the server took the value, or the memory was
full. -/
def Event.IsWrite (key : String) (e : Event) : Prop :=
  e = .cacheWritten key ∨ ∃ capacity, e = .memoryCacheFull capacity key

namespace Action

variable {P : Event → Prop} {m : Moment} {n : Notifier} {key : String}

theorem isWrite_of_mem_writeEvents {c : Cache} {b : Bool} {r : Except CacheFault α} {e : Event}
    (h : e ∈ writeEvents key c b r) : e.IsWrite key := by
  unfold writeEvents at h
  split at h
  · exact .inr ⟨_, List.mem_singleton.1 h⟩
  · cases h
  · split at h
    · cases h
    · split at h
      · exact .inl (List.mem_singleton.1 h)
      · cases h

theorem logs_cacheSet (h : ∀ e, e.IsWrite key → P e) (text : String) (ttl : Option Nat) :
    (cacheSet key text ttl).Logs P m n := fun w _ => by
  rw [perform_cacheSet]
  exact ⟨rfl, _, rfl, fun e he => h e (isWrite_of_mem_writeEvents he)⟩

theorem logs_cacheCreate (h : ∀ e, e.IsWrite key → P e) (fields : List (String × String))
    (ttl : Nat) : (cacheCreate key fields ttl).Logs P m n := fun w _ => by
  rw [perform_cacheCreate]
  exact ⟨rfl, _, rfl, fun e he => h e (isWrite_of_mem_writeEvents he)⟩

end Action

end AuthCore
