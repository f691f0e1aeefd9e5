import AuthCore.Cache.Basic
import AuthCore.Proofs.Cache.Live

/-!
# The memory cache as a map of live entries

`TtlMap` is the plain idea of a bounded map with expiring entries: it forgets an entry at the
instant at which it expires and never holds anything else. The memory cache keeps expired entries
around and throws them out at moments of its own, yet every sequence of calls is answered as the
plain map answers it. One call is compared in `perform_memory`, by what the cache shows at that time
(`MemoryCache.view`), and a sequence of them in `run_agrees`.

A counter that would leave 64 bits has no answer to compare; here numbers in fields are unbounded,
so no call has to be left out.
-/

namespace AuthCore

/-- A call of a cache. A value that is read is decoded by a reader of the caller's. -/
inductive CacheCall (α : Type) where
  | set (key text : String) (ttl : Option Nat)
  | get (key : String) (reader : Json → Option α)
  | delete (key : String)
  | contains (key : String)
  | expire (key : String) (ttl : Nat)
  | createHash (key : String) (fields : List (String × String)) (ttl : Nat)
  | getHash (key : String)
  | increment (key field : String) (delta : Int)
  | check (key field guess counter : String) (limit : Int)
  | compareAndDelete (key text : String)

/-- What a call answers if it does not fail. -/
inductive CacheAnswer (α : Type) where
  | done
  | value (a : Option α)
  | flag (b : Bool)
  | fields (fs : Option (OrderedMap String String))
  | count (n : Option Int)
  | outcome (r : HashCheck)

variable {α β : Type}

namespace CacheCall

/-- The key of a call. -/
def key : CacheCall α → String
  | set key _ _ | get key _ | delete key | contains key | expire key _ | createHash key _ _
  | getHash key | increment key _ _ | check key _ _ _ _ | compareAndDelete key _ => key

/-- Whether a call writes a key that need not be there. -/
def isWrite : CacheCall α → Bool
  | set _ _ _ | createHash _ _ _ => true
  | _ => false

/-- Puts the answer of a call into its form. -/
def answered (f : β → CacheAnswer α) (r : Except CacheFault β × Cache) :
    Except CacheFault (CacheAnswer α) × Cache :=
  (r.1.map f, r.2)

/-- Makes a call of a cache at a time. -/
def perform (now : Nat) (c : Cache) : CacheCall α → Except CacheFault (CacheAnswer α) × Cache
  | set key text ttl => answered (fun _ => .done) (c.set key text ttl now)
  | get key reader => answered .value (c.get reader key now)
  | delete key => answered .flag (c.delete key now)
  | contains key => answered .flag (c.contains key now)
  | expire key ttl => answered .flag (c.expire key ttl now)
  | createHash key fields ttl => answered .flag (c.createHash key fields ttl now)
  | getHash key => answered .fields (c.getHash key now)
  | increment key field delta => answered .count (c.increment key field delta now)
  | check key field guess counter limit =>
    answered .outcome (c.check key field guess counter limit now)
  | compareAndDelete key text => answered .flag (c.compareAndDelete key text now)

end CacheCall

/-- The answers to calls made one after the other, each at its time, and the cache in the end. -/
def Cache.run (c : Cache) :
    List (Nat × CacheCall α) → List (Except CacheFault (CacheAnswer α)) × Cache
  | [] => ([], c)
  | (now, call) :: calls =>
    let (answer, c) := call.perform now c
    let (answers, c) := c.run calls
    (answer :: answers, c)

/-- A bounded map of entries that have not expired. -/
@[ext] structure TtlMap where
  /-- The entries. -/
  entries : OrderedMap String CacheEntry
  /-- How many entries there may be. -/
  capacity : Nat

namespace TtlMap

/-- The map without entries, for a number of entries and at least one. -/
def new (capacity : Nat) : TtlMap := ⟨.empty, max capacity 1⟩

/-- The map at a time: what expires by then is forgotten. -/
def forget (now : Nat) (m : TtlMap) : TtlMap :=
  { m with entries := m.entries.filter fun _ e => e.isLive now }

/-- The map with an entry put at a key. -/
def put (key : String) (e : CacheEntry) (m : TtlMap) : TtlMap :=
  { m with entries := m.entries.insert key e }

/-- The map without a key. -/
def drop (key : String) (m : TtlMap) : TtlMap := { m with entries := m.entries.erase key }

/-- Whether there is no place for a key. -/
def isFull (key : String) (m : TtlMap) : Bool :=
  !m.entries.contains key && m.capacity ≤ m.entries.size

/-- Answers a call at a time, when everything expired has been forgotten. -/
def answer (now : Nat) (m : TtlMap) :
    CacheCall α → Except CacheFault (CacheAnswer α) × TtlMap
  | .set key text ttl =>
    if m.isFull key then (.error (.full m.capacity), m)
    else (.ok .done, m.put key ⟨.plain text, ttl.map (now + ·)⟩)
  | .get key reader =>
    match m.entries.get? key with
    | none => (.ok (.value none), m)
    | some ⟨.hash _, _⟩ => (.error (.kindMismatch key), m)
    | some ⟨.plain text, _⟩ =>
      match (Json.ofText? text).bind reader with
      | some a => (.ok (.value (some a)), m)
      | none => (.error .unreadable, m)
  | .delete key => (.ok (.flag (m.entries.contains key)), m.drop key)
  | .contains key => (.ok (.flag (m.entries.contains key)), m)
  | .expire key ttl =>
    match m.entries.get? key with
    | none => (.ok (.flag false), m)
    | some e => (.ok (.flag true), m.put key { e with expiresAt := some (now + ttl) })
  | .createHash key fields ttl =>
    if m.entries.contains key then (.ok (.flag false), m)
    else if m.isFull key then (.error (.full m.capacity), m)
    else (.ok (.flag true), m.put key ⟨.hash (.ofList fields), some (now + ttl)⟩)
  | .getHash key =>
    match m.entries.get? key with
    | none => (.ok (.fields none), m)
    | some ⟨.plain _, _⟩ => (.error (.kindMismatch key), m)
    | some ⟨.hash fs, _⟩ => (.ok (.fields (some fs)), m)
  | .increment key field delta =>
    match m.entries.get? key with
    | none => (.ok (.count none), m)
    | some ⟨.plain _, _⟩ => (.error (.kindMismatch key), m)
    | some ⟨.hash fs, expiry⟩ =>
      match Text.signed? 64 ((fs.get? field).getD "0") with
      | none => (.error (.notInteger field), m)
      | some n =>
        (.ok (.count (some (n + delta))),
          m.put key ⟨.hash (fs.insert field (Text.showInt (n + delta))), expiry⟩)
  | .check key field guess counter limit =>
    match m.entries.get? key with
    | none => (.ok (.outcome .missing), m)
    | some ⟨.plain _, _⟩ => (.error (.kindMismatch key), m)
    | some ⟨.hash fs, expiry⟩ =>
      match (fs.get? counter).bind (Text.signed? 64) with
      | none => (.ok (.outcome .locked), m)
      | some n =>
        if limit ≤ n then (.ok (.outcome .locked), m)
        else if fs.get? field = some guess then (.ok (.outcome .matched), m.drop key)
        else
          (.ok (.outcome (.mismatch (n + 1))),
            m.put key ⟨.hash (fs.insert counter (Text.showInt (n + 1))), expiry⟩)
  | .compareAndDelete key text =>
    match m.entries.get? key with
    | some ⟨.plain s, _⟩ =>
      if s = text then (.ok (.flag true), m.drop key) else (.ok (.flag false), m)
    | _ => (.ok (.flag false), m)

/-- The answers to calls made one after the other, each at its time, and the map in the end. -/
def run (m : TtlMap) :
    List (Nat × CacheCall α) → List (Except CacheFault (CacheAnswer α)) × TtlMap
  | [] => ([], m)
  | (now, call) :: calls =>
    let (answer, m) := (m.forget now).answer now call
    let (answers, m) := m.run calls
    (answer :: answers, m)

end TtlMap

namespace MemoryCache

variable {c : MemoryCache} {now later : Nat} {key : String}

/-- What a cache shows at a time. -/
def view (now : Nat) (c : MemoryCache) : TtlMap := ⟨(c.purge now).entries, c.capacity⟩

@[simp] theorem capacity_view : (c.view now).capacity = c.capacity := rfl

@[simp] theorem get?_view : (c.view now).entries.get? key = c.live? now key := get?_purge

theorem contains_view : (c.view now).entries.contains key = (c.live? now key).isSome := by
  rw [OrderedMap.contains, get?_view]

/-- A cache shows a map if it has the same bound and the same live entries. -/
theorem view_eq {m : TtlMap} (hc : c.capacity = m.capacity)
    (h : ∀ k, c.live? now k = m.entries.get? k) : c.view now = m :=
  TtlMap.ext (OrderedMap.ext_get? fun k => get?_view.trans (h k)) hc

theorem get?_view_forget (h : now ≤ later) :
    ((c.view now).forget later).entries.get? key = c.live? later key := by
  rw [TtlMap.forget, OrderedMap.get?_filter, get?_view, live?_filter_live h]

theorem view_forget (h : now ≤ later) : c.view later = (c.view now).forget later :=
  view_eq rfl fun _ => (get?_view_forget h).symm

theorem view_of_live {d : MemoryCache} (h : now ≤ later) (hc : d.capacity = c.capacity)
    (hd : ∀ k, d.live? later k = c.live? later k) : d.view later = (c.view now).forget later :=
  view_eq hc fun k => (hd k).trans (get?_view_forget h).symm

theorem view_put (h : now ≤ later) (e : CacheEntry) :
    (c.put key e).view later = ((c.view now).put key e).forget later := by
  refine view_eq rfl fun k => ?_
  rw [TtlMap.forget, OrderedMap.get?_filter, TtlMap.put]
  by_cases hk : k = key
  · rw [hk, live?_put_self, OrderedMap.get?_insert_self]
  · rw [live?_put_of_ne hk, OrderedMap.get?_insert_of_ne hk, get?_view, live?_filter_live h]

theorem view_drop (h : now ≤ later) :
    (c.drop key).view later = ((c.view now).drop key).forget later := by
  refine view_eq rfl fun k => ?_
  rw [TtlMap.forget, OrderedMap.get?_filter, TtlMap.drop]
  by_cases hk : k = key
  · rw [hk, live?_drop_self, OrderedMap.get?_erase_self, Option.filter_none]
  · rw [live?_drop_of_ne hk, OrderedMap.get?_erase_of_ne hk, get?_view, live?_filter_live h]

theorem view_dropExpired (h : now ≤ later) :
    (c.dropExpired now key).view later = (c.view now).forget later :=
  view_of_live h capacity_dropExpired fun _ => live?_dropExpired h

theorem view_makeRoom (h : now ≤ later) :
    (c.makeRoom now key).view later = (c.view now).forget later :=
  view_of_live h capacity_makeRoom fun _ => live?_makeRoom h

theorem view_makeRoom_self (key : String) : (c.makeRoom now key).view now = c.view now :=
  (view_makeRoom le_rfl).trans (view_forget le_rfl).symm

theorem isFull_view (h : c.Within) :
    (c.view now).isFull key = !(c.makeRoom now key).hasRoom key := by
  rw [Bool.eq_iff_iff, Bool.not_eq_true', hasRoom_makeRoom h, TtlMap.isFull, contains_view,
    length_liveKeys]
  simp only [Bool.and_eq_true, Bool.not_eq_true', Option.isSome_eq_false_iff,
    Option.isNone_iff_eq_none, decide_eq_true_eq]
  rfl

/-! ### One call -/

/-- A memory cache has answered like a map: the same answer, and from then on the same to be
seen. -/
def Agrees (now : Nat) (r : Except CacheFault (CacheAnswer α) × Cache)
    (s : Except CacheFault (CacheAnswer α) × TtlMap) : Prop :=
  ∃ d : MemoryCache, r.2 = .memory d ∧ d.Within ∧ r.1 = s.1 ∧
    ∀ later, now ≤ later → d.view later = s.2.forget later

/-- A call that only looks. -/
theorem agrees_keep (h : c.Within) (a : Except CacheFault (CacheAnswer α)) :
    Agrees now (a, .memory c) (a, c.view now) :=
  ⟨c, rfl, h, rfl, fun _ hl => view_forget hl⟩

/-- A call that finds nothing and clears away what has expired. -/
theorem agrees_clear (h : c.Within) (a : Except CacheFault (CacheAnswer α)) :
    Agrees now (a, .memory (c.dropExpired now key)) (a, c.view now) :=
  ⟨_, rfl, within_dropExpired h, rfl, fun _ hl => view_dropExpired hl⟩

/-- A call that changes the entry of its key. -/
theorem agrees_put (h : c.Within) (hr : c.hasRoom key = true) (e : CacheEntry)
    (a : Except CacheFault (CacheAnswer α)) :
    Agrees now (a, .memory (c.put key e)) (a, (c.view now).put key e) :=
  ⟨_, rfl, within_put h e hr, rfl, fun _ hl => view_put hl e⟩

/-- A call that takes its key away. -/
theorem agrees_drop (h : c.Within) (a : Except CacheFault (CacheAnswer α)) :
    Agrees now (a, .memory (c.drop key)) (a, (c.view now).drop key) :=
  ⟨_, rfl, within_drop h, rfl, fun _ hl => view_drop hl⟩

section Calls

open CacheCall

theorem agrees_set (h : c.Within) (key text : String) (ttl : Option Nat) :
    Agrees now (perform now (.memory c) (.set key text ttl : CacheCall α))
      ((c.view now).answer now (.set key text ttl)) := by
  have hm : (c.makeRoom now key).Within := within_makeRoom h
  simp only [perform, answered, Cache.set, Cache.ofMemory, MemoryCache.set, TtlMap.answer,
    isFull_view h, capacity_view]
  by_cases hr : (c.makeRoom now key).hasRoom key = true
  · rw [if_pos hr, hr, ← view_makeRoom_self key]
    exact agrees_put hm hr _ _
  · rw [if_neg hr, Bool.eq_false_iff.2 hr, ← view_makeRoom_self key]
    exact capacity_makeRoom (c := c) ▸ agrees_keep hm _

theorem agrees_get (h : c.Within) (key : String) (reader : Json → Option α) :
    Agrees now (perform now (.memory c) (.get key reader))
      ((c.view now).answer now (.get key reader)) := by
  simp only [perform, answered, Cache.get, Cache.getText, Cache.ofMemory, MemoryCache.get,
    TtlMap.answer, get?_view]
  cases hl : c.live? now key with
  | none => exact agrees_clear h _
  | some e =>
    obtain ⟨value, expiry⟩ := e
    cases value with
    | hash fs => exact agrees_keep h _
    | plain text =>
      simp only [Except.bind, Cache.parse]
      cases (Json.ofText? text).bind reader with
      | none => exact agrees_keep h _
      | some a => exact agrees_keep h _

theorem agrees_delete (h : c.Within) (key : String) :
    Agrees now (perform now (.memory c) (.delete key : CacheCall α))
      ((c.view now).answer now (.delete key)) := by
  simp only [TtlMap.answer, contains_view]
  exact agrees_drop h _

theorem agrees_contains (h : c.Within) (key : String) :
    Agrees now (perform now (.memory c) (.contains key : CacheCall α))
      ((c.view now).answer now (.contains key)) := by
  simp only [TtlMap.answer, contains_view]
  exact agrees_keep h _

theorem agrees_expire (h : c.Within) (key : String) (ttl : Nat) :
    Agrees now (perform now (.memory c) (.expire key ttl : CacheCall α))
      ((c.view now).answer now (.expire key ttl)) := by
  simp only [perform, answered, Cache.expire, Cache.ofSure, MemoryCache.expire, TtlMap.answer,
    get?_view]
  cases hl : c.live? now key with
  | none => exact agrees_keep h _
  | some e => exact agrees_put h (hasRoom_of_live hl) _ _

theorem agrees_createHash (h : c.Within) (key : String) (fields : List (String × String))
    (ttl : Nat) :
    Agrees now (perform now (.memory c) (.createHash key fields ttl : CacheCall α))
      ((c.view now).answer now (.createHash key fields ttl)) := by
  have hm : (c.makeRoom now key).Within := within_makeRoom h
  have hl : (c.makeRoom now key).contains now key = (c.live? now key).isSome := by
    rw [MemoryCache.contains, live?_makeRoom le_rfl]
  simp only [perform, answered, Cache.createHash, Cache.ofMemory, MemoryCache.createHash,
    TtlMap.answer, contains_view, isFull_view h, capacity_view, hl]
  by_cases hs : (c.live? now key).isSome = true
  · -- a live key has its place, so its own refusal comes first on both sides
    obtain ⟨e, he⟩ := Option.isSome_iff_exists.1 hs
    have hlive : (c.makeRoom now key).live? now key = some e := (live?_makeRoom le_rfl).trans he
    have hr : (c.makeRoom now key).hasRoom key = true := hasRoom_of_live hlive
    rw [if_pos hr, if_pos hs, if_pos hs, ← view_makeRoom_self key]
    exact agrees_keep hm _
  · rw [if_neg hs, if_neg hs]
    by_cases hr : (c.makeRoom now key).hasRoom key = true
    · rw [if_pos hr, hr, ← view_makeRoom_self key]
      exact agrees_put hm hr _ _
    · rw [if_neg hr, Bool.eq_false_iff.2 hr, ← view_makeRoom_self key]
      exact capacity_makeRoom (c := c) ▸ agrees_keep hm _

theorem agrees_getHash (h : c.Within) (key : String) :
    Agrees now (perform now (.memory c) (.getHash key : CacheCall α))
      ((c.view now).answer now (.getHash key)) := by
  simp only [perform, answered, Cache.getHash, Cache.ofMemory, MemoryCache.getHash, TtlMap.answer,
    get?_view]
  cases hl : c.live? now key with
  | none => exact agrees_clear h _
  | some e =>
    obtain ⟨value, expiry⟩ := e
    cases value with
    | hash fs => exact agrees_keep h _
    | plain text => exact agrees_keep h _

theorem fieldNumber_eq (fs : OrderedMap String String) (field : String) :
    fieldNumber fs field = match Text.signed? 64 ((fs.get? field).getD "0") with
      | some n => .ok n
      | none => .error (.notInteger field) := by
  unfold fieldNumber
  cases fs.get? field with
  | none => rfl
  | some text => rfl

theorem agrees_increment (h : c.Within) (key field : String) (delta : Int) :
    Agrees now (perform now (.memory c) (.increment key field delta : CacheCall α))
      ((c.view now).answer now (.increment key field delta)) := by
  simp only [perform, answered, Cache.increment, Cache.ofMemory, MemoryCache.increment,
    TtlMap.answer, get?_view]
  cases hl : c.live? now key with
  | none => exact agrees_keep h _
  | some e =>
    obtain ⟨value, expiry⟩ := e
    cases value with
    | plain text => exact agrees_keep h _
    | hash fs =>
      simp only [fieldNumber_eq]
      cases Text.signed? 64 ((fs.get? field).getD "0") with
      | none => exact agrees_keep h _
      | some n => exact agrees_put h (hasRoom_of_live hl) _ _

theorem agrees_check (h : c.Within) (key field guess counter : String) (limit : Int) :
    Agrees now (perform now (.memory c) (.check key field guess counter limit : CacheCall α))
      ((c.view now).answer now (.check key field guess counter limit)) := by
  simp only [perform, answered, Cache.check, Cache.ofMemory, MemoryCache.check, TtlMap.answer,
    get?_view]
  cases hl : c.live? now key with
  | none => exact agrees_clear h _
  | some e =>
    obtain ⟨value, expiry⟩ := e
    cases value with
    | plain text => exact agrees_keep h _
    | hash fs =>
      simp only [guesses?]
      cases (fs.get? counter).bind (Text.signed? 64) with
      | none => exact agrees_keep h _
      | some n =>
        by_cases hn : n < limit
        · simp only [Option.filter_some, decide_eq_true hn, if_true, if_neg (not_le.2 hn)]
          by_cases hg : fs.get? field = some guess
          · simp only [if_pos hg]
            exact agrees_drop h _
          · simp only [if_neg hg]
            exact agrees_put h (hasRoom_of_live hl) _ _
        · simp only [Option.filter_some, decide_eq_false hn, Bool.false_eq_true, if_false,
            if_pos (not_lt.1 hn)]
          exact agrees_keep h _

theorem agrees_compareAndDelete (h : c.Within) (key text : String) :
    Agrees now (perform now (.memory c) (.compareAndDelete key text : CacheCall α))
      ((c.view now).answer now (.compareAndDelete key text)) := by
  simp only [perform, answered, Cache.compareAndDelete, Cache.ofSure,
    MemoryCache.compareAndDelete, TtlMap.answer, get?_view]
  cases hl : c.live? now key with
  | none => exact agrees_keep h _
  | some e =>
    obtain ⟨value, expiry⟩ := e
    cases value with
    | hash fs => exact agrees_keep h _
    | plain s =>
      simp only [Option.map_some, Option.some.injEq, CacheValue.plain.injEq]
      by_cases hs : s = text
      · rw [if_pos hs, if_pos hs]
        exact agrees_drop h _
      · rw [if_neg hs, if_neg hs]
        exact agrees_keep h _

/-- Every call is answered as the map that the cache shows answers it. -/
theorem perform_memory (now : Nat) (h : c.Within) (call : CacheCall α) :
    Agrees now (call.perform now (.memory c)) ((c.view now).answer now call) := by
  cases call with
  | set key text ttl => exact agrees_set h key text ttl
  | get key reader => exact agrees_get h key reader
  | delete key => exact agrees_delete h key
  | contains key => exact agrees_contains h key
  | expire key ttl => exact agrees_expire h key ttl
  | createHash key fields ttl => exact agrees_createHash h key fields ttl
  | getHash key => exact agrees_getHash h key
  | increment key field delta => exact agrees_increment h key field delta
  | check key field guess counter limit => exact agrees_check h key field guess counter limit
  | compareAndDelete key text => exact agrees_compareAndDelete h key text

end Calls

end MemoryCache

/-! ### What the plain map does -/

namespace TtlMap

variable {m : TtlMap} {now later : Nat} {k : String}

@[simp] theorem capacity_forget : (m.forget now).capacity = m.capacity := rfl

/-- The two maps differ at one key at most. -/
def SameBut (key : String) (m n : TtlMap) : Prop :=
  n.capacity = m.capacity ∧ ∀ k, k ≠ key → n.entries.get? k = m.entries.get? k

theorem sameBut_self (key : String) : m.SameBut key m := ⟨rfl, fun _ _ => rfl⟩

theorem sameBut_put (key : String) (e : CacheEntry) : m.SameBut key (m.put key e) :=
  ⟨rfl, fun _ hk => OrderedMap.get?_insert_of_ne hk ..⟩

theorem sameBut_drop (key : String) : m.SameBut key (m.drop key) :=
  ⟨rfl, fun _ hk => OrderedMap.get?_erase_of_ne hk ..⟩

/-- A call changes no entry but that of its key. -/
theorem sameBut_answer (call : CacheCall α) : m.SameBut call.key (m.answer now call).2 := by
  cases call <;> simp only [answer, CacheCall.key] <;> repeat' split
  all_goals first | exact sameBut_self _ | exact sameBut_put _ _ | exact sameBut_drop _

/-- A write is refused for want of room exactly if its key is not there and the map is full. -/
theorem answer_full_iff (now : Nat) {call : CacheCall α} (h : call.isWrite = true) :
    (m.answer now call).1 = .error (.full m.capacity) ↔
      m.entries.get? call.key = none ∧ m.capacity ≤ m.entries.size := by
  have hf (key : String) : m.isFull key = true ↔
      m.entries.get? key = none ∧ m.capacity ≤ m.entries.size := by
    simp [isFull, OrderedMap.contains]
  cases call with
  | set key text ttl =>
    simp only [answer, CacheCall.key, ← hf]
    split <;> simp_all
  | createHash key fields ttl =>
    simp only [answer, CacheCall.key, ← hf]
    split
    next hc => simp [isFull, hc]
    next => split <;> simp_all
  | _ => exact absurd h Bool.false_ne_true

theorem capacity_run (calls : List (Nat × CacheCall α)) :
    ∀ {m : TtlMap}, (m.run calls).2.capacity = m.capacity := by
  induction calls with
  | nil => exact rfl
  | cons x calls ih => exact ih.trans (sameBut_answer x.2).1

end TtlMap

/-! ### Sequences of calls -/

namespace MemoryCache

variable {c : MemoryCache} {m : TtlMap} {now : Nat}

/-- A cache that shows a map from some time on answers every sequence of calls as the map does, and
shows in the end what the map holds. -/
theorem run_agrees (calls : List (Nat × CacheCall α)) :
    ∀ {c : MemoryCache} {m : TtlMap} {now : Nat}, c.Within →
      (∀ later, now ≤ later → c.view later = m.forget later) →
      calls.Pairwise (·.1 ≤ ·.1) → (∀ x ∈ calls, now ≤ x.1) →
      ((Cache.memory c).run calls).1 = (m.run calls).1 ∧
        ∃ d, ((Cache.memory c).run calls).2 = .memory d ∧ d.Within ∧
          ∀ later, now ≤ later → (∀ x ∈ calls, x.1 ≤ later) →
            d.view later = (m.run calls).2.forget later := by
  induction calls with
  | nil => exact fun hc hv _ _ => ⟨rfl, _, rfl, hc, fun later hl _ => hv later hl⟩
  | cons x calls ih =>
    intro c m now hc hv hs hge
    obtain ⟨start, call⟩ := x
    obtain ⟨hx, hs⟩ := List.pairwise_cons.1 hs
    have hnow : now ≤ start := hge _ List.mem_cons_self
    obtain ⟨d, hd, hw, ha, hdv⟩ := perform_memory start hc call
    rw [hv start hnow] at ha hdv
    obtain ⟨hr, d', hd', hw', hv'⟩ := ih hw hdv hs hx
    simp only [Cache.run, TtlMap.run, hd]
    refine ⟨by rw [ha, hr], d', hd', hw', fun later _ hle => ?_⟩
    exact hv' later (hle _ List.mem_cons_self) fun y hy => hle y (List.mem_cons_of_mem _ hy)

/-- A call leaves what there is to see at other keys, now and later. -/
theorem perform_frame (h : c.Within) (call : CacheCall α) {d : MemoryCache}
    (hd : (call.perform now (.memory c)).2 = .memory d) {k : String} (hk : k ≠ call.key)
    {later : Nat} (hl : now ≤ later) : d.live? later k = c.live? later k := by
  obtain ⟨d', hd', -, -, hv⟩ := perform_memory now h call
  rw [hd, Cache.memory.injEq] at hd'
  subst hd'
  rw [← get?_view, hv later hl, TtlMap.forget, OrderedMap.get?_filter,
    (TtlMap.sameBut_answer call).2 k hk, get?_view, live?_filter_live hl]

/-- What a cache shows is all that matters to what it answers from then on. -/
theorem run_eq_of_view {d : MemoryCache} (hc : c.Within) (hd : d.Within)
    (hv : d.view now = c.view now) {calls : List (Nat × CacheCall α)}
    (hs : calls.Pairwise (·.1 ≤ ·.1)) (hge : ∀ x ∈ calls, now ≤ x.1) :
    ((Cache.memory d).run calls).1 = ((Cache.memory c).run calls).1 :=
  (run_agrees calls hd (fun _ hl => hv ▸ view_forget hl) hs hge).1.trans
    (run_agrees calls hc (fun _ hl => view_forget hl) hs hge).1.symm

theorem perform_full_iff (h : c.Within) {call : CacheCall α} (hw : call.isWrite = true) :
    (call.perform now (.memory c)).1 = .error (.full c.capacity) ↔
      c.live? now call.key = none ∧ c.capacity ≤ (c.liveKeys now).length := by
  obtain ⟨-, -, -, ha, -⟩ := perform_memory now h call
  have hf := TtlMap.answer_full_iff (m := c.view now) now hw
  rw [get?_view, capacity_view] at hf
  rw [ha, hf, length_liveKeys]
  rfl

/-- A cache that starts empty answers every sequence of calls, at times that never go back, as the
plain map does. Wherever the sequence stops, the cache shows what the map holds; what else lies
around has no effect on any later answer; a call leaves every other key alone; and a write is
refused for want of room exactly if its key is not live and as many keys are as there may be. -/
theorem run_eq_ttlMap (entries : Nat) (calls : List (Nat × CacheCall α))
    (h : calls.Pairwise (·.1 ≤ ·.1)) :
    ((Cache.memory (.new entries)).run calls).1 = ((TtlMap.new entries).run calls).1 ∧
      ∃ c, ((Cache.memory (.new entries)).run calls).2 = .memory c ∧
        ∀ now, (∀ x ∈ calls, x.1 ≤ now) →
          c.view now = ((TtlMap.new entries).run calls).2.forget now ∧
          (∀ d : MemoryCache, d.Within → d.view now = c.view now →
            ∀ more : List (Nat × CacheCall α), more.Pairwise (·.1 ≤ ·.1) →
              (∀ x ∈ more, now ≤ x.1) →
              ((Cache.memory d).run more).1 = ((Cache.memory c).run more).1) ∧
          ∀ call : CacheCall α,
            (∃ d, (call.perform now (.memory c)).2 = .memory d ∧
              ∀ k, k ≠ call.key → ∀ later, now ≤ later → d.live? later k = c.live? later k) ∧
            (call.isWrite = true →
              ((call.perform now (.memory c)).1 = .error (.full (max entries 1)) ↔
                c.live? now call.key = none ∧ max entries 1 ≤ (c.liveKeys now).length)) := by
  have hv : ∀ later, 0 ≤ later → (MemoryCache.new entries).view later =
      (TtlMap.new entries).forget later := fun _ _ => view_eq rfl fun _ => rfl
  obtain ⟨ha, c, hc, hw, hcv⟩ :=
    run_agrees calls (within_new entries) hv h fun _ _ => Nat.zero_le _
  refine ⟨ha, c, hc, fun now hnow => ?_⟩
  have hview := hcv now (Nat.zero_le _) hnow
  have hcap : c.capacity = max entries 1 :=
    (congrArg TtlMap.capacity hview).trans (TtlMap.capacity_run calls)
  refine ⟨hview, ?_, fun call => ⟨?_, ?_⟩⟩
  · exact fun d hd hdv more hs hge => run_eq_of_view hw hd hdv hs hge
  · obtain ⟨d, hd, -⟩ := perform_memory now hw call
    exact ⟨d, hd, fun k hk later hl => perform_frame hw call hd hk hl⟩
  · exact fun hcall => hcap ▸ perform_full_iff hw hcall

/-- One place: a second key is refused as long as the first is live, and taken at the instant at
which it expires. -/
theorem run_eq_ttlMap_one :
    ((Cache.memory (.new 1)).run (α := String)
      [(0, .set "a" "1" (some 5)), (4, .set "b" "2" none), (5, .set "b" "2" none)]).1 =
      [.ok .done, .error (.full 1), .ok .done] :=
  (run_eq_ttlMap 1 _ (by decide)).1.trans rfl

end MemoryCache

end AuthCore
