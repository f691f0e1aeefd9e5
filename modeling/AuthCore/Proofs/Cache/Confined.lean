import AuthCore.Proofs.Otp.Codes
import AuthCore.Proofs.Token.Exchange

/-!
# Actions confined to some keys

An action is confined to some keys of a memory cache if it leaves alone what the cache shows at all
others, and if what it answers and leaves at its own keys depends on nothing else in the cache. The
one thing that all keys share is the room in the cache, so nothing is said of an action that finds
the cache full.

Two actions that are confined to different keys may be done in either order (`Confined.commute`).
One-time codes are confined to the key of their username, tokens to the keys of the refresh tokens
that are presented and issued.
-/

namespace AuthCore

variable {α β : Type}

/-! ### Calls at one key -/

namespace TtlMap

variable {m n : TtlMap} {now : Nat} {key : String}

@[simp] theorem get?_put (key : String) (e : CacheEntry) :
    (m.put key e).entries.get? key = some e := OrderedMap.get?_insert_self ..

@[simp] theorem get?_drop (key : String) : (m.drop key).entries.get? key = none :=
  OrderedMap.get?_erase_self ..

/-- A write that is not refused for want of room has found some. -/
theorem isFull_of_ne {r : Except CacheFault (CacheAnswer α) × TtlMap}
    (h : ∀ k, (if m.isFull key then (.error (.full m.capacity), m) else r).1 ≠ .error (.full k)) :
    m.isFull key = false := by
  cases hl : m.isFull key with
  | false => rfl
  | true =>
    rw [hl] at h
    exact absurd rfl (h m.capacity)

/-- Of all entries a call looks at that of its key only, unless there is no room. -/
theorem answer_congr (call : CacheCall α)
    (h : n.entries.get? call.key = m.entries.get? call.key)
    (hm : ∀ k, (m.answer now call).1 ≠ .error (.full k))
    (hn : ∀ k, (n.answer now call).1 ≠ .error (.full k)) :
    (n.answer now call).1 = (m.answer now call).1 ∧
      (n.answer now call).2.entries.get? call.key =
        (m.answer now call).2.entries.get? call.key := by
  have hc : n.entries.contains call.key = m.entries.contains call.key := by
    rw [OrderedMap.contains, OrderedMap.contains, h]
  cases call with
  | set key text ttl =>
    simp only [answer] at hm hn ⊢
    rw [isFull_of_ne hm, isFull_of_ne hn]
    simp [CacheCall.key]
  | createHash key fields ttl =>
    simp only [answer, CacheCall.key] at h hc hm hn ⊢
    rw [hc] at hn ⊢
    cases ht : m.entries.contains key with
    | true => exact ⟨rfl, h⟩
    | false =>
      rw [ht] at hm hn
      rw [isFull_of_ne hm, isFull_of_ne hn]
      simp
  | get key reader =>
    simp only [answer, CacheCall.key] at h ⊢
    rw [h]
    split
    · exact ⟨rfl, h⟩
    · exact ⟨rfl, h⟩
    · split
      · exact ⟨rfl, h⟩
      · exact ⟨rfl, h⟩
  | _ =>
    simp only [answer, CacheCall.key] at h hc ⊢
    simp only [h, hc]
    repeat' split
    all_goals simp [h]

end TtlMap

namespace MemoryCache

variable {c c' d d' : MemoryCache} {now : Nat}

/-- A call is answered alike by caches that show the same at its key from now on, and they go on
showing the same there. -/
theorem perform_congr (hc : c.Within) (hc' : c'.Within) (call : CacheCall α)
    (h : ∀ later, now ≤ later → c'.live? later call.key = c.live? later call.key)
    (hroom : ∀ n, (call.perform now (.memory c)).1 ≠ .error (.full n))
    (hroom' : ∀ n, (call.perform now (.memory c')).1 ≠ .error (.full n))
    (hd : (call.perform now (.memory c)).2 = .memory d)
    (hd' : (call.perform now (.memory c')).2 = .memory d') :
    (call.perform now (.memory c')).1 = (call.perform now (.memory c)).1 ∧
      ∀ later, now ≤ later → d'.live? later call.key = d.live? later call.key := by
  obtain ⟨e, he, -, ha, hv⟩ := perform_memory now hc call
  obtain ⟨e', he', -, ha', hv'⟩ := perform_memory now hc' call
  obtain rfl : e = d := Cache.memory.inj (he.symm.trans hd)
  obtain rfl : e' = d' := Cache.memory.inj (he'.symm.trans hd')
  have hview : (c'.view now).entries.get? call.key = (c.view now).entries.get? call.key := by
    rw [get?_view, get?_view, h now le_rfl]
  rw [ha] at hroom
  rw [ha'] at hroom'
  obtain ⟨hanswer, hentry⟩ := TtlMap.answer_congr call hview hroom hroom'
  refine ⟨by rw [ha, ha', hanswer], fun later hl => ?_⟩
  rw [← get?_view, ← get?_view, hv later hl, hv' later hl, TtlMap.forget, TtlMap.forget,
    OrderedMap.get?_filter, OrderedMap.get?_filter, hentry]

end MemoryCache

/-! ### What two worlds show -/

namespace World

variable {w v u : World} {s : Store} {K : String → Prop} {now : Nat}

/-- What the cache of a world shows at a key; a server shows nothing. -/
def live? (w : World) (now : Nat) (key : String) : Option CacheEntry :=
  match w.cache with
  | .memory c => c.live? now key
  | .remote _ => none

/-- A world with a store and a memory cache that keeps its bound. -/
structure Over (s : Store) (w : World) : Prop where
  store : w.store = s
  memory : ∃ c, w.cache = .memory c ∧ c.Within

/-- From a time on two worlds show the same at some keys. -/
def SameAt (K : String → Prop) (now : Nat) (w v : World) : Prop :=
  ∀ k, K k → ∀ later, now ≤ later → v.live? later k = w.live? later k

theorem live?_memory {c : MemoryCache} (h : w.cache = .memory c) (now : Nat) (key : String) :
    w.live? now key = c.live? now key := by rw [live?, h]

theorem live?_congr (h : v.cache = w.cache) (now : Nat) (key : String) :
    v.live? now key = w.live? now key := by rw [live?, live?, h]

theorem Over.congr (h : w.Over s) (hc : v.cache = w.cache) (hs : v.store = w.store) : v.Over s :=
  ⟨hs.trans h.store, hc ▸ h.memory⟩

theorem SameAt.of_cache (h : v.cache = w.cache) : SameAt K now w v :=
  fun k _ later _ => live?_congr h later k

theorem SameAt.symm (h : SameAt K now w v) : SameAt K now v w :=
  fun k hk later hl => (h k hk later hl).symm

theorem SameAt.trans (h : SameAt K now w v) (h' : SameAt K now v u) : SameAt K now w u :=
  fun k hk later hl => (h' k hk later hl).trans (h k hk later hl)

theorem SameAt.mono {L : String → Prop} (h : SameAt K now w v) (hle : ∀ k, L k → K k) :
    SameAt L now w v :=
  fun k hk later hl => h k (hle k hk) later hl

end World

/-- The cache had no room. -/
def Answer.IsFull (r : Answer α) : Prop := ∃ n, r = .error (.cache (.full n))

theorem Answer.not_isFull_ok (a : α) : ¬Answer.IsFull (.ok a) := fun ⟨_, h⟩ => nomatch h

/-! ### Confined actions -/

namespace Action

open World

/-- At a moment and over a store, an action has to do with some keys of the cache only. -/
structure Confined (m : Moment) (s : Store) (K : String → Prop) (x : Action α) : Prop where
  stays : ∀ {w}, w.Over s → (x.perform m w).2.Over s
  frame : ∀ {w}, w.Over s → SameAt (fun k => ¬K k) m.now w (x.perform m w).2
  reads : ∀ {w v}, w.Over s → v.Over s → SameAt K m.now w v →
    ¬(x.perform m w).1.IsFull → ¬(x.perform m v).1.IsFull →
    (x.perform m v).1 = (x.perform m w).1 ∧ SameAt K m.now (x.perform m w).2 (x.perform m v).2

variable {m : Moment} {s : Store} {K L : String → Prop} {x : Action α}

/-- What neither changes the cache nor depends on it is confined to no key. -/
theorem Confined.of_same (hx : Frame.same.Keeps x)
    (ha : ∀ w v : World, w.store = s → v.store = s → (x.perform m v).1 = (x.perform m w).1) :
    Confined m s K x where
  stays hw := hw.congr (hx m _).1 (hx m _).2
  frame _ := .of_cache (hx m _).1
  reads {w v} hw hv h _ _ := ⟨ha w v hw.store hv.store,
    ((SameAt.of_cache (hx m w).1).symm.trans h).trans (.of_cache (hx m v).1)⟩

theorem Confined.mono (h : Confined m s K x) (hle : ∀ k, K k → L k) : Confined m s L x where
  stays := h.stays
  frame hw := (h.frame hw).mono fun k hk hK => hk (hle k hK)
  reads {w v} hw hv hsame hroom hroom' := by
    obtain ⟨ha, hs⟩ := h.reads hw hv (hsame.mono hle) hroom hroom'
    refine ⟨ha, fun k hk later hl => ?_⟩
    by_cases hK : K k
    · exact hs k hK later hl
    · rw [h.frame hv k hK later hl, h.frame hw k hK later hl, hsame k hk later hl]

/-- The second part may rely on what the first one answers. -/
theorem Confined.bind {f : α → Action β} (hx : Confined m s K x)
    (hf : ∀ a, (∃ w, w.Over s ∧ (x.perform m w).1 = .ok a) → Confined m s K (f a)) :
    Confined m s K (x >>= f) where
  stays {w} hw := by
    have hv := hx.stays hw
    rw [perform_bind]
    rcases hxw : x.perform m w with ⟨e | a, v⟩ <;> rw [hxw] at hv
    · exact hv
    · exact (hf a ⟨w, hw, congrArg Prod.fst hxw⟩).stays hv
  frame {w} hw := by
    have hv := hx.stays hw
    have hs := hx.frame hw
    rw [perform_bind]
    rcases hxw : x.perform m w with ⟨e | a, v⟩ <;> rw [hxw] at hv hs
    · exact hs
    · exact hs.trans ((hf a ⟨w, hw, congrArg Prod.fst hxw⟩).frame hv)
  reads {w w'} hw hw' hsame hroom hroom' := by
    have hv := hx.stays hw
    have hv' := hx.stays hw'
    -- a first part that finds no room ends the whole
    have hfirst {u : World} (hu : ¬((x >>= f).perform m u).1.IsFull) :
        ¬(x.perform m u).1.IsFull := by
      rintro ⟨n, hn⟩
      rw [perform_bind_error (Prod.ext hn rfl)] at hu
      exact hu ⟨n, rfl⟩
    obtain ⟨ha, hs⟩ := hx.reads hw hw' hsame (hfirst hroom) (hfirst hroom')
    rw [perform_bind] at hroom hroom'
    rw [perform_bind, perform_bind]
    rcases hxw : x.perform m w with ⟨r, v⟩
    rcases hxw' : x.perform m w' with ⟨r', v'⟩
    rw [hxw, hxw'] at ha hs
    rw [hxw] at hv hroom
    rw [hxw'] at hv' hroom'
    obtain rfl : r' = r := ha
    cases r' with
    | error e => exact ⟨rfl, hs⟩
    | ok a => exact (hf a ⟨w, hw, congrArg Prod.fst hxw⟩).reads hv hv' hs hroom hroom'

theorem Confined.map (h : Confined m s K x) (f : α → β) : Confined m s K (f <$> x) := by
  rw [map_eq_pure_bind]
  exact h.bind fun a _ => .of_same (Frame.keeps_pure _) fun _ _ _ _ => rfl

/-- A call of the cache is confined to its key, in whatever form it is made. -/
theorem Confined.of_call (call : CacheCall β) {f : α → CacheAnswer β}
    (hf : ∀ a b, f a = f b → a = b)
    (hx : ∀ w, ∃ r : Except CacheFault α, (x.perform m w).1 = r.mapError .cache ∧
      r.map f = (call.perform m.now w.cache).1 ∧
      (x.perform m w).2.cache = (call.perform m.now w.cache).2 ∧
      (x.perform m w).2.store = w.store) :
    Confined m s (· = call.key) x where
  stays {w} hw := by
    obtain ⟨-, -, -, hcache, hstore⟩ := hx w
    obtain ⟨c, hc, hwithin⟩ := hw.memory
    obtain ⟨d, hd, hdw, -⟩ := MemoryCache.perform_memory m.now hwithin call
    exact ⟨hstore.trans hw.store, d, by rw [hcache, hc, hd], hdw⟩
  frame {w} hw k hk later hl := by
    obtain ⟨-, -, -, hcache, -⟩ := hx w
    obtain ⟨c, hc, hwithin⟩ := hw.memory
    obtain ⟨d, hd, -⟩ := MemoryCache.perform_memory m.now hwithin call
    rw [live?_memory hc, live?_memory (by rw [hcache, hc, hd])]
    exact MemoryCache.perform_frame hwithin call hd hk hl
  reads {w v} hw hv hsame hroom hroom' := by
    obtain ⟨r, hr, hcall, hcache, -⟩ := hx w
    obtain ⟨r', hr', hcall', hcache', -⟩ := hx v
    obtain ⟨c, hc, hwithin⟩ := hw.memory
    obtain ⟨c', hc', hwithin'⟩ := hv.memory
    rw [hc] at hcall hcache
    rw [hc'] at hcall' hcache'
    -- the cache finds no room exactly if the action says so
    have hfull {q : Except CacheFault α} (hq : ¬Answer.IsFull (q.mapError Error.cache)) (n : Nat) :
        q.map f ≠ .error (.full n) := by
      intro hn
      cases q with
      | error e => exact hq ⟨n, by rw [Except.error.inj hn]; rfl⟩
      | ok a => cases hn
    obtain ⟨d, hd, -⟩ := MemoryCache.perform_memory m.now hwithin call
    obtain ⟨d', hd', -⟩ := MemoryCache.perform_memory m.now hwithin' call
    have hshown : ∀ later, m.now ≤ later →
        c'.live? later call.key = c.live? later call.key := fun later hl => by
      rw [← live?_memory hc', ← live?_memory hc, hsame call.key rfl later hl]
    obtain ⟨ha, hs⟩ := MemoryCache.perform_congr hwithin hwithin' call hshown
      (hcall ▸ hfull (hr ▸ hroom)) (hcall' ▸ hfull (hr' ▸ hroom')) hd hd'
    have hrr : r' = r := by
      rw [← hcall, ← hcall'] at ha
      cases r with
      | error e =>
        cases r' with
        | error e' => exact congrArg Except.error (Except.error.inj ha)
        | ok b => cases ha
      | ok a =>
        cases r' with
        | error e' => cases ha
        | ok b => rw [hf b a (Except.ok.inj ha)]
    refine ⟨by rw [hr, hr', hrr], fun k hk later hl => ?_⟩
    rw [show k = call.key from hk, live?_memory (hcache'.trans hd'), live?_memory (hcache.trans hd)]
    exact hs later hl

theorem confined_get (f : Json → Option α) (key : String) :
    Confined m s (· = key) (cached fun now => Cache.get f key now) :=
  .of_call (.get key f) (f := .value) (fun _ _ h => CacheAnswer.value.inj h)
    fun _ => ⟨_, rfl, rfl, rfl, rfl⟩

theorem confined_take (key text : String) :
    Confined m s (· = key) (cached fun now => Cache.compareAndDelete key text now) :=
  .of_call (.compareAndDelete key text : CacheCall Unit) (f := .flag)
    (fun _ _ h => CacheAnswer.flag.inj h) fun _ => ⟨_, rfl, rfl, rfl, rfl⟩

theorem confined_check (key field guess counter : String) (limit : Int) :
    Confined m s (· = key)
      (cached fun now => Cache.check key field guess counter limit now) :=
  .of_call (.check key field guess counter limit : CacheCall Unit) (f := .outcome)
    (fun _ _ h => CacheAnswer.outcome.inj h) fun _ => ⟨_, rfl, rfl, rfl, rfl⟩

theorem confined_cacheSet (key text : String) (ttl : Option Nat) :
    Confined m s (· = key) (cacheSet key text ttl) :=
  .of_call (.set key text ttl : CacheCall Unit) (f := fun _ => .done) (fun _ _ _ => rfl)
    fun _ => ⟨_, rfl, rfl, rfl, rfl⟩

theorem confined_cacheCreate (key : String) (fields : List (String × String)) (ttl : Nat) :
    Confined m s (· = key) (cacheCreate key fields ttl) :=
  .of_call (.createHash key fields ttl : CacheCall Unit) (f := .flag)
    (fun _ _ h => CacheAnswer.flag.inj h) fun _ => ⟨_, rfl, rfl, rfl, rfl⟩

theorem confined_read : Confined m s K read :=
  .of_same Frame.keeps_read fun _ _ _ _ => rfl

theorem confined_log (e : Event) : Confined m s K (log e) :=
  .of_same (Frame.keeps_log e) fun _ _ _ _ => rfl

theorem confined_reject (e : AuthError) : Confined m s K (reject e : Action α) :=
  .of_same (Frame.keeps_reject e) fun _ _ _ _ => rfl

theorem confined_pure (a : α) : Confined m s K (pure a) :=
  .of_same (Frame.keeps_pure a) fun _ _ _ _ => rfl

theorem confined_require (b : Bool) (e : AuthError) : Confined m s K (require b e) :=
  .of_same (Frame.keeps_require b e) fun _ _ _ _ => by rw [perform_require, perform_require]

theorem confined_ofAnswer (r : Answer α) : Confined m s K (ofAnswer r) :=
  .of_same (Frame.keeps_ofAnswer r) fun _ _ _ _ => rfl

theorem confined_orReject (e : AuthError) (o : Option α) : Confined m s K (orReject e o) := by
  cases o with
  | some a => exact confined_pure a
  | none => exact confined_reject e

theorem confined_query (f : Store → Answer α) : Confined m s K (query f) :=
  .of_same (Frame.keeps_query f) fun w v hw hv => by rw [perform_query, perform_query, hw, hv]

/-- Actions that are confined to different keys may be done in either order: each answers the same,
and in the end the same is to be seen. -/
theorem Confined.commute {y : Action β} {m' : Moment} (hx : Confined m s K x)
    (hy : Confined m' s L y) (hnow : m'.now = m.now) (hdis : ∀ k, K k → ¬L k) {w : World}
    (hw : w.Over s) (hx₁ : ¬(x.perform m w).1.IsFull)
    (hy₂ : ¬(y.perform m' (x.perform m w).2).1.IsFull) (hy₁ : ¬(y.perform m' w).1.IsFull)
    (hx₂ : ¬(x.perform m (y.perform m' w).2).1.IsFull) :
    (y.perform m' (x.perform m w).2).1 = (y.perform m' w).1 ∧
      (x.perform m (y.perform m' w).2).1 = (x.perform m w).1 ∧
      ∀ k later, m.now ≤ later →
        (y.perform m' (x.perform m w).2).2.live? later k =
          (x.perform m (y.perform m' w).2).2.live? later k := by
  have hwx := hx.stays hw
  have hwy := hy.stays hw
  have hframex := hx.frame hw
  have hframey := hy.frame hw
  have hframexy := hy.frame hwx
  have hframeyx := hx.frame hwy
  rw [hnow] at hframey hframexy
  obtain ⟨hay, hsy⟩ := hy.reads hw hwx
    (hnow ▸ hframex.mono fun k hL hK => hdis k hK hL) hy₁ hy₂
  obtain ⟨hax, hsx⟩ := hx.reads hw hwy (hframey.mono hdis) hx₁ hx₂
  rw [hnow] at hsy
  refine ⟨hay, hax, fun k later hl => ?_⟩
  by_cases hK : K k
  · rw [hframexy k (hdis k hK) later hl, hsx k hK later hl]
  · by_cases hL : L k
    · rw [hframeyx k hK later hl, hsy k hL later hl]
    · rw [hframexy k hL later hl, hframex k hK later hl, hframeyx k hK later hl,
        hframey k hL later hl]

end Action

/-! ### Codes and tokens -/

namespace Otp

open AuthCore.Action

variable {m : Moment} {s : Store}

/-- Whatever comes of the delivery is only logged. -/
theorem confined_deliver {K : String → Prop} (recipient : String) (message : Message) :
    Confined m s K (deliver recipient message) :=
  .of_same (keeps_deliver recipient message) fun _ _ _ _ => by rw [deliver_ok, deliver_ok]

theorem confined_request (c : OtpConfig) (u : Username) (purpose : OtpPurpose)
    (greeted : Option String) : Confined m s (· = key u) (request c u purpose greeted) := by
  unfold request
  refine confined_read.bind fun m _ => ?_
  refine (confined_cacheCreate _ _ _).bind fun created _ => ?_
  refine (confined_require _ _).bind fun _ _ => (confined_log _).bind fun _ _ => ?_
  split
  · exact confined_pure ()
  · exact confined_deliver _ _

theorem confined_verify (c : OtpConfig) (u : Username) (guess : String) :
    Confined m s (· = key u) (verify c u guess) := by
  unfold verify
  refine (confined_check _ _ _ _ _).bind fun r _ => ?_
  cases r with
  | matched => exact confined_log _
  | mismatch n => exact (confined_log _).bind fun _ _ => confined_reject _
  | locked => exact (confined_log _).bind fun _ _ => confined_reject _
  | missing => exact confined_reject _

end Otp

namespace Tokens

open AuthCore.Action

variable {t : Tokens} {m : Moment} {s : Store}

theorem confined_issue (user : Int) (role : Role) (limited : Bool) :
    Confined m s (· = key (t.minted user m)) (t.issue user role limited) := by
  unfold issue
  refine confined_read.bind fun m' hm => ?_
  obtain ⟨_, _, hm⟩ := hm
  obtain rfl := Except.ok.inj hm
  refine (confined_cacheSet _ _ _).bind fun _ _ => ?_
  exact (confined_log _).bind fun _ _ => confined_pure _

/-- The refresh tokens of an exchange: the one that is presented, and the one that would be issued
for its user. -/
inductive Exchanges (t : Tokens) (s : Store) (m : Moment) (token : String) : String → Prop
  | presented : Exchanges t s m token token
  | issued {id : Int} {user : User} (hv : RefreshToken.verify t.signer token = .ok id)
      (hu : s.findById id = .ok (some user)) : Exchanges t s m token (t.minted user.id m)

theorem confined_refresh (token : String) :
    Confined m s (fun k => ∃ r, t.Exchanges s m token r ∧ k = key r) (t.refresh token) := by
  have hold : ∀ k, k = key token → ∃ r, t.Exchanges s m token r ∧ k = key r :=
    fun k hk => ⟨token, .presented, hk⟩
  rw [refresh_eq]
  refine ((confined_get _ _).mono hold).bind fun o _ => ?_
  refine (confined_orReject _ o).bind fun entry _ => ?_
  refine (confined_ofAnswer _).bind fun id hid => ?_
  have hv : RefreshToken.verify t.signer token = .ok id := by
    obtain ⟨_, _, hid⟩ := hid
    rw [perform_ofAnswer] at hid
    cases hr : RefreshToken.verify t.signer token with
    | error e => rw [hr] at hid; cases hid
    | ok i => rw [hr] at hid; cases hid; rfl
  split
  · exact (confined_log _).bind fun _ _ => confined_reject _
  · refine (confined_query _).bind fun o ho => ?_
    obtain ⟨w, hw, ho⟩ := ho
    rw [perform_query, hw.store] at ho
    refine (confined_orReject _ o).bind fun user huser => ?_
    obtain ⟨w, -, huser⟩ := huser
    obtain ⟨rfl, -⟩ := orReject_eq_ok.1 (Prod.ext huser rfl)
    have hnew : ∀ k, k = key (t.minted user.id m) → ∃ r, t.Exchanges s m token r ∧ k = key r :=
      fun k hk => ⟨_, .issued hv ho, hk⟩
    refine (confined_require _ _).bind fun _ _ => ?_
    refine ((confined_take _ _).mono hold).bind fun taken _ => ?_
    refine (confined_require _ _).bind fun _ _ => ?_
    refine ((confined_issue _ _ _).mono hnew).bind fun pair _ => ?_
    exact (confined_log _).bind fun _ _ => confined_pure pair

end Tokens

end AuthCore
