import AuthCore.Cache.Memory
import AuthCore.Proofs.OrderedMap

/-!
# What a memory cache shows

A cache is seen through its live entries, `MemoryCache.live?`. What has expired is never seen again,
so throwing it out early or late changes nothing from then on (`live?_purge`), and each operation
changes at most the entry of its own key. A cache that keeps its bound (`Within`) refuses a write
exactly when as many entries are live as it may hold and the key is not among them
(`hasRoom_makeRoom`).

The statements about an operation at `now` are made for every `later` time: what an operation does
to the entries that can still be seen then.
-/

namespace AuthCore

theorem CacheEntry.isLive_of_le {e : CacheEntry} {now later : Nat} (h : now ≤ later)
    (hl : e.isLive later = true) : e.isLive now = true := by
  unfold isLive at *
  split at hl
  · simp only [decide_eq_true_eq] at *
    omega
  · rfl

namespace MemoryCache

variable {c : MemoryCache} {now later : Nat} {key k : String}

/-- The cache holds no more entries than it may. -/
def Within (c : MemoryCache) : Prop := c.size ≤ c.capacity

/-- The keys of the live entries. -/
def liveKeys (now : Nat) (c : MemoryCache) : List String := (c.purge now).entries.keys

theorem within_new (capacity : Nat) : (MemoryCache.new capacity).Within := Nat.zero_le _

theorem live?_eq_some_iff {e : CacheEntry} :
    c.live? now key = some e ↔ c.entries.get? key = some e ∧ e.isLive now = true :=
  Option.filter_eq_some_iff

@[simp] theorem live?_new (capacity : Nat) : (MemoryCache.new capacity).live? now key = none := rfl

theorem live?_filter_live (h : now ≤ later) :
    (c.live? now key).filter (·.isLive later) = c.live? later key := by
  refine Option.ext fun e => ?_
  rw [Option.filter_eq_some_iff, live?_eq_some_iff, live?_eq_some_iff]
  constructor
  · rintro ⟨⟨hg, -⟩, hl⟩
    exact ⟨hg, hl⟩
  · rintro ⟨hg, hl⟩
    exact ⟨⟨hg, CacheEntry.isLive_of_le h hl⟩, hl⟩

/-! ### Changing an entry -/

theorem live?_put_self (e : CacheEntry) :
    (c.put key e).live? later key = (some e).filter (·.isLive later) := by
  rw [live?, put, OrderedMap.get?_insert_self]

theorem live?_put_of_ne (h : k ≠ key) (e : CacheEntry) :
    (c.put key e).live? later k = c.live? later k := by
  rw [live?, put, OrderedMap.get?_insert_of_ne h, live?]

@[simp] theorem live?_drop_self : (c.drop key).live? later key = none := by
  rw [live?, drop, OrderedMap.get?_erase_self, Option.filter_none]

theorem live?_drop_of_ne (h : k ≠ key) : (c.drop key).live? later k = c.live? later k := by
  rw [live?, drop, OrderedMap.get?_erase_of_ne h, live?]

theorem within_drop (h : c.Within) : (c.drop key).Within :=
  (c.entries.size_erase_le key).trans h

theorem within_put (h : c.Within) (e : CacheEntry) (hr : c.hasRoom key = true) :
    (c.put key e).Within := by
  show (c.entries.insert key e).size ≤ c.capacity
  rw [OrderedMap.size_insert]
  simp only [hasRoom, Bool.or_eq_true, decide_eq_true_eq] at hr
  rcases hr with hr | hr
  · split
    · exact h
    · exact hr
  · rw [if_pos hr]
    exact h

theorem hasRoom_of_live {e : CacheEntry} (h : c.live? now key = some e) :
    c.hasRoom key = true := by
  rw [hasRoom, OrderedMap.contains_iff.2 ⟨e, (live?_eq_some_iff.1 h).1⟩, Bool.or_true]

/-! ### Throwing out what has expired -/

theorem get?_purge : (c.purge now).entries.get? key = c.live? now key :=
  c.entries.get?_filter _ key

theorem live?_purge (h : now ≤ later) : (c.purge now).live? later key = c.live? later key := by
  rw [live?, get?_purge, live?_filter_live h]

theorem within_purge (h : c.Within) : (c.purge now).Within :=
  (c.entries.size_filter_le _).trans h

theorem length_liveKeys : (c.liveKeys now).length = (c.purge now).size := List.length_map _

theorem live?_dropExpired (h : now ≤ later) :
    (c.dropExpired now key).live? later k = c.live? later k := by
  unfold dropExpired
  split
  next e he =>
    split
    next => rfl
    next hl =>
      by_cases hk : k = key
      · -- the entry that goes has expired, and so it is not seen later either
        subst hk
        rw [live?_drop_self]
        refine (Option.filter_eq_none_iff.2 fun a ha => ?_).symm
        rw [he, Option.some.injEq] at ha
        exact fun hl' => hl (CacheEntry.isLive_of_le h (ha ▸ hl'))
      · exact live?_drop_of_ne hk
  next => rfl

theorem within_dropExpired (h : c.Within) : (c.dropExpired now key).Within := by
  unfold dropExpired
  split
  · split
    · exact h
    · exact within_drop h
  · exact h

@[simp] theorem capacity_dropExpired : (c.dropExpired now key).capacity = c.capacity := by
  unfold dropExpired
  split
  · split <;> rfl
  · rfl

theorem live?_makeRoom (h : now ≤ later) :
    (c.makeRoom now key).live? later k = c.live? later k := by
  unfold makeRoom
  split
  · rfl
  · exact live?_purge h

theorem within_makeRoom (h : c.Within) : (c.makeRoom now key).Within := by
  unfold makeRoom
  split
  · exact h
  · exact within_purge h

@[simp] theorem capacity_makeRoom : (c.makeRoom now key).capacity = c.capacity := by
  unfold makeRoom
  split <;> rfl

/-- A key finds no room exactly if it is not live and as many others are as there may be. -/
theorem hasRoom_makeRoom (h : c.Within) :
    (c.makeRoom now key).hasRoom key = false ↔
      c.live? now key = none ∧ c.capacity ≤ (c.liveKeys now).length := by
  have hp : (c.purge now).size ≤ c.size := c.entries.size_filter_le _
  rw [length_liveKeys]
  by_cases hc : c.entries.contains key = true
  · -- a key that is there keeps its place; if it has expired, the live ones are fewer than all
    have hm : c.makeRoom now key = c := by simp [makeRoom, hc]
    rw [hm, hasRoom, hc, Bool.or_true]
    simp only [Bool.true_eq_false, false_iff, not_and, not_le]
    intro hl
    obtain ⟨e, he⟩ := OrderedMap.contains_iff.1 hc
    rw [live?, he, Option.filter_some, ite_eq_right_iff] at hl
    have := OrderedMap.size_filter_lt (p := fun _ e => e.isLive now) he
      (Bool.eq_false_iff.2 fun hl' => Option.some_ne_none e (hl hl'))
    exact lt_of_lt_of_le this h
  · have hn : c.entries.get? key = none := by
      rw [OrderedMap.contains, Bool.not_eq_true, Option.isSome_eq_false_iff,
        Option.isNone_iff_eq_none] at hc
      exact hc
    have hl : c.live? now key = none := by rw [live?, hn, Option.filter_none]
    have hq : (c.purge now).entries.contains key = false := by
      rw [OrderedMap.contains, get?_purge, hl, Option.isSome_none]
    rw [Bool.not_eq_true] at hc
    simp only [hl, true_and]
    unfold Within at h
    by_cases hs : c.size < c.capacity
    · have hm : c.makeRoom now key = c := by simp [makeRoom, hs]
      rw [hm, hasRoom, decide_eq_true hs, Bool.true_or]
      simp only [Bool.true_eq_false, false_iff, not_le]
      omega
    · have hm : c.makeRoom now key = c.purge now := by simp [makeRoom, hs, hc]
      rw [hm, hasRoom, hq, Bool.or_false, decide_eq_false_iff_not, not_lt]
      rfl

/-- A place that was taken by a live entry is free for any key once the entry is gone. -/
theorem hasRoom_makeRoom_drop (h : c.Within) {e : CacheEntry} (hl : c.live? now key = some e)
    (later : Nat) (k : String) : ((c.drop key).makeRoom later k).hasRoom k = true := by
  have hs : (c.drop key).size < (c.drop key).capacity :=
    lt_of_lt_of_le (c.entries.size_erase_lt (live?_eq_some_iff.1 hl).1) h
  have hm : (c.drop key).makeRoom later k = c.drop key := by
    rw [makeRoom, decide_eq_true hs, Bool.true_or, if_pos rfl]
  rw [hm, hasRoom, decide_eq_true hs, Bool.true_or]

end MemoryCache

end AuthCore
