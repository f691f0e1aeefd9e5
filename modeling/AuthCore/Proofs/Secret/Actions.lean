import AuthCore.Proofs.Secret.Cache
import AuthCore.Proofs.Secret.Store
import AuthCore.Proofs.Text.Size

/-!
# Actions that differ in secrets only

Secrets are passwords, their hashes and salts, and one-time codes. Two actions performed in worlds
that differ in secrets only go the same way if they answer the same error or related values, and
leave worlds that differ in secrets only (`Action.Akin`). That passes through the steps of composed
actions, as long as the second parts are related for related answers of the first ones. The log is
no secret, so it stays the same in both worlds.

What lies in the outbox and what was sent over the network contains codes, and nothing ever looks at
it again; so it may differ too.
-/

namespace AuthCore

variable {α β γ δ : Type}

/-- Two answers are the same error, or values that are related. -/
def Answer.Rel (R : α → β → Prop) : Answer α → Answer β → Prop
  | .ok a, .ok b => R a b
  | .error e, .error f => e = f
  | _, _ => False

/-- Two users differ in the hash of the password only. -/
def User.Akin (u u' : User) : Prop := u.veil = u'.veil

/-- Two worlds over a memory cache differ in secrets only. -/
structure World.Akin (w w' : World) : Prop where
  cache : ∃ c d : MemoryCache, w.cache = .memory c ∧ w'.cache = .memory d ∧ c.veil = d.veil
  store : w.store.veil = w'.store.veil
  notifier : w.notifier = w'.notifier
  responses : w.network.responses = w'.network.responses
  log : w.log = w'.log

/-- Two moments differ in secrets only: codes of the same number of digits have the same size. -/
structure Moment.Akin (m m' : Moment) : Prop where
  now : m.now = m'.now
  nonce : m.nonce = m'.nonce
  code : ∀ n, (m.code n).utf8ByteSize = (m'.code n).utf8ByteSize

/-- Two actions came to related answers and left worlds that differ in secrets only. -/
structure Parallel (R : α → β → Prop) (r : Answer α × World) (r' : Answer β × World) : Prop where
  answer : Answer.Rel R r.1 r'.1
  world : r.2.Akin r'.2

/-- Two actions go the same way at two moments, in all worlds that differ in secrets only. -/
def Action.Akin (R : α → β → Prop) (m m' : Moment) (x : Action α) (x' : Action β) : Prop :=
  ∀ w w', w.Akin w' → Parallel R (x.perform m w) (x'.perform m' w')

theorem User.Akin.exists_hash {u u' : User} (h : u.Akin u') :
    ∃ hash, u' = { u with hashedPassword := hash } := by
  refine ⟨u'.hashedPassword, ?_⟩
  have heta : u' = { u'.veil with hashedPassword := u'.hashedPassword } := rfl
  rw [heta, ← h]
  rfl

theorem UserChanges.exists_hash {c c' : UserChanges} (h : c.veil = c'.veil) :
    ∃ hash, c' = { c with hashedPassword := hash } := by
  refine ⟨c'.hashedPassword, ?_⟩
  have heta : c' = { c'.veil with hashedPassword := c'.hashedPassword } := rfl
  rw [heta, ← h]
  rfl

theorem Moment.Akin.second {m m' : Moment} (h : m.Akin m') : m.second = m'.second := by
  rw [Moment.second, Moment.second, h.now]

theorem Moment.Akin.timestamp {m m' : Moment} (h : m.Akin m') : m.timestamp = m'.timestamp := by
  rw [Moment.timestamp, Moment.timestamp, h.now]

namespace Answer.Rel

variable {R : α → β → Prop} {S : γ → δ → Prop} {r : Answer α} {r' : Answer β}

theorem refl (r : Answer α) : Answer.Rel Eq r r := by
  cases r <;> rfl

theorem of_eq {r r' : Answer α} (h : r = r') : Answer.Rel Eq r r' := h ▸ refl r

/-- Two answers are related if they are the same after a view. -/
theorem of_map_eq {f : α → γ} {r r' : Answer α} (h : r.map f = r'.map f) :
    Answer.Rel (fun a a' => f a = f a') r r' := by
  cases r <;> cases r'
  · exact Except.error.inj h
  · cases h
  · cases h
  · exact Except.ok.inj h

theorem map {f : α → γ} {g : β → δ} (h : Answer.Rel R r r') (hf : ∀ a b, R a b → S (f a) (g b)) :
    Answer.Rel S (r.map f) (r'.map g) := by
  cases r <;> cases r'
  · exact h
  · cases h
  · cases h
  · exact hf _ _ h

end Answer.Rel

namespace World.Akin

variable {w w' : World}

theorem of_cache (h : w.Akin w') {c d : MemoryCache} (hcd : c.veil = d.veil) :
    World.Akin { w with cache := .memory c } { w' with cache := .memory d } :=
  ⟨⟨c, d, rfl, rfl, hcd⟩, h.store, h.notifier, h.responses, h.log⟩

theorem of_store (h : w.Akin w') {s s' : Store} (hs : s.veil = s'.veil) :
    World.Akin { w with store := s } { w' with store := s' } :=
  ⟨h.cache, hs, h.notifier, h.responses, h.log⟩

theorem of_log (h : w.Akin w') (es : List Event) :
    World.Akin { w with log := w.log ++ es } { w' with log := w'.log ++ es } :=
  ⟨h.cache, h.store, h.notifier, h.responses, congrArg (· ++ es) h.log⟩

end World.Akin

namespace Action

variable {m m' : Moment} {w w' : World} {R : α → β → Prop} {S : γ → δ → Prop}
  {x : Action α} {x' : Action β}

/-! ### Composed actions -/

/-- The second parts may rely on what the first ones answer and leave. -/
theorem parallel_bind {f : α → Action γ} {f' : β → Action δ}
    (hx : Parallel R (x.perform m w) (x'.perform m' w'))
    (hf : ∀ a a' v v', x.perform m w = (.ok a, v) → x'.perform m' w' = (.ok a', v') →
      R a a' → v.Akin v' → Parallel S ((f a).perform m v) ((f' a').perform m' v')) :
    Parallel S ((x >>= f).perform m w) ((x' >>= f').perform m' w') := by
  obtain ⟨hanswer, hworld⟩ := hx
  rw [perform_bind, perform_bind]
  rcases hxw : x.perform m w with ⟨e | a, v⟩ <;>
    rcases hxw' : x'.perform m' w' with ⟨e' | a', v'⟩ <;>
    rw [hxw, hxw'] at hanswer hworld
  · exact ⟨hanswer, hworld⟩
  · cases hanswer
  · cases hanswer
  · exact hf a a' v v' hxw hxw' hanswer hworld

/-- Two actions go the same way, whatever they answer if they succeed. -/
abbrev Alike (m m' : Moment) (x : Action α) (x' : Action β) : Prop :=
  Action.Akin (fun _ _ => True) m m' x x'

namespace Akin

theorem bind {f : α → Action γ} {f' : β → Action δ} (hx : x.Akin R m m' x')
    (hf : ∀ a a', R a a' → (f a).Akin S m m' (f' a')) : (x >>= f).Akin S m m' (x' >>= f') :=
  fun w w' h => parallel_bind (hx w w' h) fun a a' v v' _ _ ha hv => hf a a' ha v v' hv

/-- The first parts answer the same. -/
theorem bind_same {y y' : Action α} {f : α → Action γ} {f' : α → Action δ}
    (hy : y.Akin Eq m m' y') (hf : ∀ a, (f a).Akin S m m' (f' a)) :
    (y >>= f).Akin S m m' (y' >>= f') :=
  hy.bind fun a _ ha => ha ▸ hf a

theorem map {f : α → γ} {g : β → δ} (hx : x.Akin R m m' x') (hf : ∀ a b, R a b → S (f a) (g b)) :
    (f <$> x).Akin S m m' (g <$> x') := by
  intro w w' h
  rw [perform_map, perform_map]
  exact ⟨(hx w w' h).answer.map hf, (hx w w' h).world⟩

theorem mono {R' : α → β → Prop} (hx : x.Akin R m m' x') (h : ∀ a b, R a b → R' a b) :
    x.Akin R' m m' x' := by
  have hmap := hx.map (f := id) (g := id) h
  rwa [id_map, id_map] at hmap

theorem alike (hx : x.Akin R m m' x') : x.Alike m m' x' := hx.mono fun _ _ _ => trivial

theorem ite {c : Prop} [Decidable c] {y : Action α} {y' : Action β} (hx : x.Akin R m m' x')
    (hy : y.Akin R m m' y') : (if c then x else y).Akin R m m' (if c then x' else y') := by
  split
  · exact hx
  · exact hy

theorem tryCatch {handle : Error → Action α} {handle' : Error → Action β} (hx : x.Akin R m m' x')
    (hh : ∀ e, (handle e).Akin R m m' (handle' e)) :
    (tryCatch x handle).Akin R m m' (tryCatch x' handle') := by
  intro w w' h
  obtain ⟨hanswer, hworld⟩ := hx w w' h
  rw [perform_tryCatch, perform_tryCatch]
  rcases hxw : x.perform m w with ⟨e | a, v⟩ <;>
    rcases hxw' : x'.perform m' w' with ⟨e' | a', v'⟩ <;>
    rw [hxw, hxw'] at hanswer hworld
  · obtain rfl : e = e' := hanswer
    exact hh e v v' hworld
  · cases hanswer
  · cases hanswer
  · exact ⟨hanswer, hworld⟩

end Akin

/-- What is read are the two moments. -/
theorem akin_read_bind {f : Moment → Action α} {f' : Moment → Action β}
    (h : (f m).Akin R m m' (f' m')) : (read >>= f).Akin R m m' (read >>= f') := h

/-- What is got are two worlds that deliver messages in the same way. -/
theorem akin_get_bind {f : World → Action α} {f' : World → Action β}
    (h : ∀ w w', w.notifier = w'.notifier → (f w).Akin R m m' (f' w')) :
    (get >>= f).Akin R m m' (get >>= f') := fun w w' hw => h w w' hw.notifier w w' hw

/-! ### Single actions -/

theorem akin_pure {a : α} {b : β} (h : R a b) : (pure a : Action α).Akin R m m' (pure b) :=
  fun _ _ hw => ⟨h, hw⟩

theorem akin_throw (e : Error) : (throw e : Action α).Akin R m m' (throw e) :=
  fun _ _ hw => ⟨rfl, hw⟩

theorem akin_reject (r : AuthError) : (reject r : Action α).Akin R m m' (reject r) := akin_throw _

theorem akin_require {b b' : Bool} (h : b = b') (r : AuthError) :
    (require b r).Akin Eq m m' (require b' r) := by
  subst h
  exact (akin_pure rfl).ite (akin_reject r)

theorem akin_orReject {o : Option α} {o' : Option β} (h : Option.Rel R o o') (r : AuthError) :
    (orReject r o).Akin R m m' (orReject r o') := by
  cases h with
  | some h => exact akin_pure h
  | none => exact akin_reject r

theorem akin_orReject_same (o : Option α) (r : AuthError) :
    (orReject r o).Akin Eq m m' (orReject r o) := by
  cases o with
  | some a => exact akin_pure rfl
  | none => exact akin_reject r

theorem akin_ofAnswer {r : Answer α} {r' : Answer β} (h : Answer.Rel R r r') :
    (ofAnswer r).Akin R m m' (ofAnswer r') :=
  fun _ _ hw => ⟨h, hw⟩

theorem akin_query {f : Store → Answer α} {f' : Store → Answer β}
    (h : ∀ s s' : Store, s.veil = s'.veil → Answer.Rel R (f s) (f' s')) :
    (query f).Akin R m m' (query f') :=
  fun _ _ hw => ⟨h _ _ hw.store, hw⟩

theorem akin_change {f : Store → Answer α × Store} {f' : Store → Answer β × Store}
    (h : ∀ s s' : Store, s.veil = s'.veil →
      Answer.Rel R (f s).1 (f' s').1 ∧ (f s).2.veil = (f' s').2.veil) :
    (change f).Akin R m m' (change f') := fun _ _ hw =>
  ⟨(h _ _ hw.store).1, hw.of_store (h _ _ hw.store).2⟩

theorem akin_log (e : Event) : (log e).Akin Eq m m' (log e) := fun _ _ hw => ⟨rfl, hw.of_log [e]⟩

theorem akin_forM {f : β → Action PUnit} (h : ∀ b, (f b).Akin Eq m m' (f b)) (bs : List β) :
    (bs.forM f).Akin Eq m m' (bs.forM f) := by
  induction bs with
  | nil => exact akin_pure rfl
  | cons b bs ih => exact (h b).bind_same fun _ => ih

/-- What is sent does not matter, only what is answered. -/
theorem akin_send (r r' : Request) : (send r).Akin Eq m m' (send r') := by
  intro w w' hw
  have hresponses := hw.responses
  rw [perform_send, perform_send]
  simp only [Network.send, ← hresponses]
  cases hr : w.network.responses with
  | nil => exact ⟨rfl, hw⟩
  | cons a rest => exact ⟨rfl, hw.cache, hw.store, hw.notifier, rfl, hw.log⟩

theorem akin_fetch {r r' : Request} (h : r.address = r'.address) :
    (fetch r).Akin Eq m m' (fetch r') := by
  unfold fetch
  rw [h]
  refine Akin.ite ((akin_send r r').bind_same fun o => ?_) (akin_throw _)
  cases o with
  | some a => exact akin_pure rfl
  | none => exact akin_throw _

/-! ### Using the cache -/

/-- Two calls leave memory caches that differ in codes only. -/
theorem akin_cached {f : Nat → Cache → Except CacheFault α × Cache}
    {f' : Nat → Cache → Except CacheFault β × Cache} (hm : m.Akin m') (hw : w.Akin w')
    (h : ∀ c d : MemoryCache, w.cache = .memory c → w'.cache = .memory d → c.veil = d.veil →
      ∃ c' d' : MemoryCache, (f m.now (.memory c)).2 = .memory c' ∧
        (f' m.now (.memory d)).2 = .memory d' ∧ c'.veil = d'.veil) :
    ((cached f).perform m w).2.Akin ((cached f').perform m' w').2 := by
  obtain ⟨c, d, hc, hd, hcd⟩ := hw.cache
  obtain ⟨c', d', hc', hd', hcd'⟩ := h c d hc hd hcd
  rw [perform_cached, perform_cached, ← hm.now, hc, hd, hc', hd']
  exact hw.of_cache hcd'

/-- Two calls of a memory cache answer the same, and leave caches that differ in codes only. -/
theorem parallel_cached {f f' : Nat → Cache → Except CacheFault α × Cache} (hm : m.Akin m')
    (hw : w.Akin w')
    (h : ∀ c d : MemoryCache, w.cache = .memory c → w'.cache = .memory d → c.veil = d.veil →
      (f m.now (.memory c)).1 = (f' m.now (.memory d)).1 ∧
      ∃ c' d' : MemoryCache, (f m.now (.memory c)).2 = .memory c' ∧
        (f' m.now (.memory d)).2 = .memory d' ∧ c'.veil = d'.veil) :
    Parallel Eq ((cached f).perform m w) ((cached f').perform m' w') := by
  refine ⟨?_, akin_cached hm hw fun c d hc hd hcd => (h c d hc hd hcd).2⟩
  obtain ⟨c, d, hc, hd, hcd⟩ := hw.cache
  rw [perform_cached, perform_cached, ← hm.now, hc, hd, (h c d hc hd hcd).1]
  exact Answer.Rel.refl _

theorem akin_get (hm : m.Akin m') (reader : Json → Option α) (key : String) :
    (cached fun now => Cache.get reader key now).Akin Eq m m'
      (cached fun now => Cache.get reader key now) := by
  intro w w' hw
  refine parallel_cached hm hw fun c d _ _ hcd => ?_
  obtain ⟨hanswer, hcd'⟩ :=
    MemoryCache.akin_of_veil hcd (c.get_veil m.now key) (d.get_veil m.now key)
  exact ⟨congrArg (·.bind (Cache.parse reader)) hanswer, _, _, rfl, rfl, hcd'⟩

theorem akin_compareAndDelete (hm : m.Akin m') (key text : String) :
    (cached fun now => Cache.compareAndDelete key text now).Akin Eq m m'
      (cached fun now => Cache.compareAndDelete key text now) := by
  intro w w' hw
  refine parallel_cached hm hw fun c d _ _ hcd => ?_
  obtain ⟨hanswer, hcd'⟩ := MemoryCache.akin_of_veil hcd (c.compareAndDelete_veil m.now key text)
    (d.compareAndDelete_veil m.now key text)
  exact ⟨congrArg Except.ok hanswer, _, _, rfl, rfl, hcd'⟩

theorem akin_cacheSet (hm : m.Akin m') (key text : String) (ttl : Option Nat) :
    (cacheSet key text ttl).Akin Eq m m' (cacheSet key text ttl) := by
  intro w w' hw
  obtain ⟨c, d, hc, hd, hcd⟩ := hw.cache
  obtain ⟨hanswer, hcd'⟩ := MemoryCache.akin_of_veil hcd (c.set_veil m.now key text ttl)
    (d.set_veil m.now key text ttl)
  rw [perform_cacheSet, perform_cacheSet, ← hm.now, hc, hd]
  simp only [Cache.set, Cache.ofMemory, hanswer]
  exact ⟨Answer.Rel.refl _, (hw.of_cache hcd').of_log (writeEvents key (.memory c) true _)⟩

/-- What is put into the fields may differ in one-time codes. -/
theorem akin_cacheCreate (hm : m.Akin m') (key : String) {fields fields' : List (String × String)}
    (hf : fields.map (fun f => (f.1, CacheValue.veilField f.1 f.2)) =
      fields'.map fun f => (f.1, CacheValue.veilField f.1 f.2)) (ttl : Nat) :
    (cacheCreate key fields ttl).Akin Eq m m' (cacheCreate key fields' ttl) := by
  intro w w' hw
  obtain ⟨c, d, hc, hd, hcd⟩ := hw.cache
  obtain ⟨hanswer, hcd'⟩ := MemoryCache.akin_of_veil hcd (c.createHash_veil m.now key fields ttl)
    (hf ▸ d.createHash_veil m.now key fields' ttl)
  rw [perform_cacheCreate, perform_cacheCreate, ← hm.now, hc, hd]
  simp only [Cache.createHash, Cache.ofMemory, hanswer]
  exact ⟨Answer.Rel.refl _, (hw.of_cache hcd').of_log (writeEvents key (.memory c) false _)⟩

/-! ### Using the store -/

/-- A user is found in both stores or in none. -/
theorem akin_find {f : Store → Answer (Option User)}
    (h : ∀ s : Store, f s.veil = (f s).map (Option.map User.veil)) :
    (query f).Akin (Option.Rel User.Akin) m m' (query f) := by
  refine Akin.mono (R := fun o o' => Option.map User.veil o = Option.map User.veil o')
    (akin_query fun s s' hs => Answer.Rel.of_map_eq ?_) fun o o' ho => ?_
  · rw [← h, ← h, hs]
  · rcases o with _ | u <;> rcases o' with _ | u'
    · exact .none
    · cases ho
    · cases ho
    · exact .some (Option.some.inj ho)

/-- What is asked for has nothing to do with hashes. -/
theorem akin_query_same {f : Store → Answer α} (h : ∀ s : Store, f s.veil = f s) :
    (query f).Akin Eq m m' (query f) :=
  akin_query fun s s' hs => .of_eq (by rw [← h, hs, h])

/-- Two changes of users that are the same once hashes are taken out. -/
theorem akin_changeUser {f f' k : Store → Answer User × Store}
    (h : ∀ s : Store, k s.veil = ((f s).1.map User.veil, (f s).2.veil))
    (h' : ∀ s : Store, k s.veil = ((f' s).1.map User.veil, (f' s).2.veil)) :
    (change f).Akin User.Akin m m' (change f') :=
  akin_change fun s s' hs =>
    let hk := Prod.mk.inj ((h s).symm.trans ((congrArg k hs).trans (h' s')))
    ⟨Answer.Rel.of_map_eq hk.1, hk.2⟩

/-- A change that has nothing to do with hashes. -/
theorem akin_change_same {f : Store → Answer α × Store}
    (h : ∀ s : Store, f s.veil = ((f s).1, (f s).2.veil)) :
    (change f).Akin Eq m m' (change f) :=
  akin_change fun s s' hs =>
    let hk := Prod.mk.inj ((h s).symm.trans ((congrArg f hs).trans (h s')))
    ⟨.of_eq hk.1, hk.2⟩

theorem akin_createUser {n n' : NewUser} (h : n.veil = n'.veil) :
    (change (·.createUser n)).Akin User.Akin m m' (change (·.createUser n')) :=
  akin_changeUser (fun s => s.createUser_veil n) fun s => h ▸ s.createUser_veil n'

theorem akin_updateUser (id : Int) {c c' : UserChanges} (h : c.veil = c'.veil) :
    (change (·.updateUser id c)).Akin User.Akin m m' (change (·.updateUser id c')) :=
  akin_changeUser (fun s => s.updateUser_veil id c) fun s => h ▸ s.updateUser_veil id c'

end Action

end AuthCore
