import AuthCore.OrderedMap
import Mathlib.Data.List.Sort

/-!
# Ordered maps as functions

A map is determined by what it answers at each key (`OrderedMap.ext_get?`), and each operation is
described by what it does to these answers and to the number of entries. After this module nobody
has to look at the lists of entries.
-/

namespace AuthCore.OrderedMap

variable {κ ν : Type} [Ord κ]

@[simp] theorem get?_empty (k : κ) : (empty : OrderedMap κ ν).get? k = none := rfl

@[simp] theorem size_empty : (empty : OrderedMap κ ν).size = 0 := rfl

theorem contains_iff {m : OrderedMap κ ν} {k : κ} : m.contains k = true ↔ ∃ v, m.get? k = some v :=
  Option.isSome_iff_exists

theorem filter_true (m : OrderedMap κ ν) : m.filter (fun _ _ => true) = m :=
  OrderedMap.ext (List.filter_eq_self.2 fun _ _ => rfl)

theorem size_filter_le (m : OrderedMap κ ν) (p : κ → ν → Bool) : (m.filter p).size ≤ m.size :=
  List.length_filter_le _ _

theorem size_erase_le (m : OrderedMap κ ν) (k : κ) : (m.erase k).size ≤ m.size :=
  m.size_filter_le _

theorem length_put (k : κ) (v : ν) (es : List (κ × ν)) :
    (put k v es).length = if (find k es).isSome then es.length else es.length + 1 := by
  induction es with
  | nil => simp [put, find]
  | cons e es ih =>
    obtain ⟨a, w⟩ := e
    cases hk : compare k a with
    | lt => simp [put, find, hk]
    | eq => simp [put, find, hk]
    | gt =>
      simp only [put, find, hk, List.length_cons, ih]
      split <;> rfl

variable [Std.LawfulEqOrd κ]

theorem compare_self_ne_lt (k : κ) : compare k k ≠ .lt := by
  rw [Std.ReflOrd.compare_self]
  exact Ordering.noConfusion

theorem nodup_keys (m : OrderedMap κ ν) : m.keys.Nodup := by
  have distinct (a b : κ × ν) (h : compare a.1 b.1 = .lt) : a.1 ≠ b.1 := fun he =>
    compare_self_ne_lt b.1 (he ▸ h)
  rw [keys, List.Nodup, List.pairwise_map]
  exact m.ordered.imp (distinct _ _)

theorem find_put_self (k : κ) (v : ν) (es : List (κ × ν)) : find k (put k v es) = some v := by
  induction es with
  | nil => simp [put, find, Std.ReflOrd.compare_self]
  | cons e es ih =>
    obtain ⟨a, w⟩ := e
    simp only [put]
    split
    next => simp [find, Std.ReflOrd.compare_self]
    next => simp [find, Std.ReflOrd.compare_self]
    next hk => simpa [find, hk] using ih

variable [Std.TransOrd κ]

/-! ### Entries and answers -/

theorem find_eq_some_iff {k : κ} {v : ν} {es : List (κ × ν)}
    (h : es.Pairwise fun a b => compare a.1 b.1 = .lt) : find k es = some v ↔ (k, v) ∈ es := by
  induction es with
  | nil => simp [find]
  | cons e es ih =>
    obtain ⟨a, w⟩ := e
    obtain ⟨ha, hes⟩ := List.pairwise_cons.1 h
    -- behind an entry with a greater key nothing can have the key
    have absent (hk : compare k a ≠ .gt) : (k, v) ∉ es := fun hm => hk
      (Std.OrientedCmp.gt_of_lt (ha _ hm))
    simp only [find, List.mem_cons, Prod.mk.injEq]
    split
    next hk =>
      have hne : k ≠ a := fun e => compare_self_ne_lt a (e ▸ hk)
      simp [hne, absent (by rw [hk]; exact Ordering.noConfusion)]
    next hk =>
      have he : k = a := Std.LawfulEqCmp.eq_of_compare hk
      simp [he ▸ absent (by rw [hk]; exact Ordering.noConfusion), he, eq_comm]
    next hk =>
      have hne : k ≠ a := fun e => by
        rw [e, Std.ReflOrd.compare_self] at hk
        exact Ordering.noConfusion hk
      rw [ih hes]
      simp [hne]

theorem get?_eq_some_iff {m : OrderedMap κ ν} {k : κ} {v : ν} :
    m.get? k = some v ↔ (k, v) ∈ m.entries :=
  find_eq_some_iff m.ordered

theorem mem_keys_iff {m : OrderedMap κ ν} {k : κ} : k ∈ m.keys ↔ m.contains k = true := by
  simp only [keys, List.mem_map, contains_iff, get?_eq_some_iff]
  constructor
  · rintro ⟨⟨_, v⟩, h, rfl⟩
    exact ⟨v, h⟩
  · rintro ⟨v, h⟩
    exact ⟨(k, v), h, rfl⟩

/-- Two maps that answer alike at every key are the same. -/
theorem ext_get? {m n : OrderedMap κ ν} (h : ∀ k, m.get? k = n.get? k) : m = n := by
  have irrefl : Std.Irrefl fun a b : κ × ν => compare a.1 b.1 = .lt :=
    ⟨fun a => compare_self_ne_lt a.1⟩
  have antisymm : Std.Antisymm fun a b : κ × ν => compare a.1 b.1 = .lt :=
    ⟨fun a b hab hba => absurd (Std.TransCmp.lt_trans hab hba) (compare_self_ne_lt a.1)⟩
  refine OrderedMap.ext (m.ordered.eq_of_mem_iff n.ordered fun e => ?_)
  rw [← get?_eq_some_iff, ← get?_eq_some_iff, h]

theorem mem_values_iff {m : OrderedMap κ ν} {v : ν} : v ∈ m.values ↔ ∃ k, m.get? k = some v := by
  simp only [values, List.mem_map, get?_eq_some_iff]
  constructor
  · rintro ⟨⟨k, w⟩, h, rfl⟩
    exact ⟨k, h⟩
  · rintro ⟨k, h⟩
    exact ⟨(k, v), h, rfl⟩

theorem filterMap_keys (m : OrderedMap κ ν) : m.keys.filterMap m.get? = m.values := by
  rw [keys, values, List.filterMap_map, ← List.filterMap_eq_map]
  exact List.filterMap_congr fun e he => get?_eq_some_iff.2 he

/-! ### Writing -/

theorem find_put_of_ne {k a : κ} (hne : a ≠ k) (v : ν) (es : List (κ × ν))
    (h : es.Pairwise fun a b => compare a.1 b.1 = .lt) : find a (put k v es) = find a es := by
  refine Option.ext fun w => ?_
  rw [find_eq_some_iff (pairwise_put h), find_eq_some_iff h]
  constructor
  · intro hm
    rcases mem_put hm with he | hm
    · exact absurd (Prod.mk.inj he).1 hne
    · exact hm
  · intro hm
    clear h
    induction es with
    | nil => cases hm
    | cons e es ih =>
      obtain ⟨b, u⟩ := e
      simp only [put]
      split
      next => exact List.mem_cons_of_mem _ hm
      next hk =>
        rcases List.mem_cons.1 hm with he | hm
        · have : k = b := Std.LawfulEqCmp.eq_of_compare hk
          exact absurd ((Prod.mk.inj he).1.trans this.symm) hne
        · exact List.mem_cons_of_mem _ hm
      next =>
        rcases List.mem_cons.1 hm with he | hm
        · exact he ▸ List.mem_cons_self
        · exact List.mem_cons_of_mem _ (ih hm)

@[simp] theorem get?_insert_self (m : OrderedMap κ ν) (k : κ) (v : ν) :
    (m.insert k v).get? k = some v :=
  find_put_self k v m.entries

theorem get?_insert_of_ne {k a : κ} (h : a ≠ k) (m : OrderedMap κ ν) (v : ν) :
    (m.insert k v).get? a = m.get? a :=
  find_put_of_ne h v m.entries m.ordered

theorem get?_insert [DecidableEq κ] (m : OrderedMap κ ν) (k : κ) (v : ν) (a : κ) :
    (m.insert k v).get? a = if a = k then some v else m.get? a := by
  split
  next h => rw [h, get?_insert_self]
  next h => exact get?_insert_of_ne h m v

/-- The last value put at a key counts. -/
theorem insert_insert [DecidableEq κ] (m : OrderedMap κ ν) (k : κ) (v w : ν) :
    (m.insert k v).insert k w = m.insert k w := by
  refine ext_get? fun a => ?_
  simp only [get?_insert]
  split <;> rfl

/-- Putting a value where it is changes nothing. -/
theorem insert_of_get? [DecidableEq κ] {m : OrderedMap κ ν} {k : κ} {v : ν}
    (h : m.get? k = some v) : m.insert k v = m := by
  refine ext_get? fun a => ?_
  rw [get?_insert]
  split
  next ha => rw [ha, h]
  next => rfl

theorem get?_filter (m : OrderedMap κ ν) (p : κ → ν → Bool) (k : κ) :
    (m.filter p).get? k = (m.get? k).filter (p k) := by
  refine Option.ext fun v => ?_
  rw [get?_eq_some_iff, Option.filter_eq_some_iff, get?_eq_some_iff]
  simp [filter]

@[simp] theorem get?_erase_self (m : OrderedMap κ ν) (k : κ) : (m.erase k).get? k = none := by
  rw [erase, get?_filter]
  simp [Std.ReflOrd.compare_self]

theorem get?_erase_of_ne {k a : κ} (h : a ≠ k) (m : OrderedMap κ ν) :
    (m.erase k).get? a = m.get? a := by
  have hne : compare k a ≠ .eq := fun e => h (Std.LawfulEqCmp.eq_of_compare e).symm
  rw [erase, get?_filter]
  cases m.get? a with
  | none => rfl
  | some v => simp [hne]

/-! ### Counting -/

theorem size_insert (m : OrderedMap κ ν) (k : κ) (v : ν) :
    (m.insert k v).size = if m.contains k then m.size else m.size + 1 :=
  length_put k v m.entries

/-- A filter that drops an entry makes the map smaller. -/
theorem size_filter_lt {m : OrderedMap κ ν} {p : κ → ν → Bool} {k : κ} {v : ν}
    (h : m.get? k = some v) (hp : p k v = false) : (m.filter p).size < m.size := by
  refine List.length_filter_lt_length_iff_exists.2 ⟨(k, v), get?_eq_some_iff.1 h, ?_⟩
  simp [hp]

theorem size_erase_lt {m : OrderedMap κ ν} {k : κ} {v : ν} (h : m.get? k = some v) :
    (m.erase k).size < m.size :=
  size_filter_lt h (by simp [Std.ReflOrd.compare_self])

end AuthCore.OrderedMap

/-! ### Replacing values -/

namespace AuthCore.OrderedMap

variable {κ ν μ : Type} [Ord κ] {f : κ → ν → μ}

@[simp] theorem size_mapValues (m : OrderedMap κ ν) : (m.mapValues f).size = m.size :=
  List.length_map _

theorem values_mapValues (f : ν → μ) (m : OrderedMap κ ν) :
    (m.mapValues fun _ => f).values = m.values.map f := by
  simp [values, mapValues]

/-- A test that does not see the difference picks the same keys. -/
theorem mapValues_filter {p : κ → ν → Bool} {q : κ → μ → Bool} (h : ∀ k v, q k (f k v) = p k v)
    (m : OrderedMap κ ν) : (m.filter p).mapValues f = (m.mapValues f).filter q := by
  refine OrderedMap.ext ?_
  simp [mapValues, filter, List.filter_map, Function.comp_def, h]

variable [Std.LawfulEqOrd κ]

theorem find_map (f : κ → ν → μ) (k : κ) (es : List (κ × ν)) :
    find k (es.map fun e => (e.1, f e.1 e.2)) = (find k es).map (f k) := by
  induction es with
  | nil => rfl
  | cons e es ih =>
    obtain ⟨a, v⟩ := e
    simp only [List.map_cons, find, ih]
    cases hk : compare k a with
    | lt => rfl
    | eq =>
      obtain rfl : k = a := Std.LawfulEqCmp.eq_of_compare hk
      rfl
    | gt => rfl

@[simp] theorem get?_mapValues (m : OrderedMap κ ν) (k : κ) :
    (m.mapValues f).get? k = (m.get? k).map (f k) :=
  find_map f k m.entries

@[simp] theorem contains_mapValues (m : OrderedMap κ ν) (k : κ) :
    (m.mapValues f).contains k = m.contains k := by
  rw [contains, get?_mapValues, Option.isSome_map, contains]

variable [Std.TransOrd κ]

theorem mapValues_insert [DecidableEq κ] (m : OrderedMap κ ν) (k : κ) (v : ν) :
    (m.insert k v).mapValues f = (m.mapValues f).insert k (f k v) := by
  refine ext_get? fun a => ?_
  simp only [get?_mapValues, get?_insert]
  split
  next h => rw [h, Option.map_some]
  next => rfl

theorem mapValues_ofList [DecidableEq κ] (es : List (κ × ν)) :
    (ofList es).mapValues f = ofList (es.map fun e => (e.1, f e.1 e.2)) := by
  have hfold (m : OrderedMap κ ν) : (es.foldl (fun m e => m.insert e.1 e.2) m).mapValues f =
      (es.map fun e => (e.1, f e.1 e.2)).foldl (fun m e => m.insert e.1 e.2) (m.mapValues f) := by
    induction es generalizing m with
    | nil => rfl
    | cons e es ih => rw [List.foldl_cons, ih, mapValues_insert, List.map_cons, List.foldl_cons]
  exact hfold empty

end AuthCore.OrderedMap
