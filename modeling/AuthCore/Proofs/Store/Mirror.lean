import AuthCore.Error.Basic
import AuthCore.Proofs.OrderedMap
import Mathlib.Data.List.Find
import Mathlib.Data.List.Perm.Basic

/-!
# Tables and maps

A table of rows mirrors a map if it has one row for each key of the map, and each row holds the
value at its key. The order of the rows does not matter. What a store does to a map and what a
database does to the table then keep the two together: they find the same, and a row that is added,
replaced or dropped is an entry that is added, replaced or dropped.

What is found in a table after a row was replaced or added does not depend on a map (`Rows`).
-/

namespace AuthCore

variable {ρ κ ν : Type}

/-! ### Rows that are replaced or added -/

namespace Rows

variable [BEq κ] [LawfulBEq κ] {key : ρ → κ} {rows : List ρ} {r old : ρ}

/-- A row that is replaced leaves its key behind. -/
theorem key_replaced (key : ρ → κ) (r s : ρ) : key (if key s == key r then r else s) = key s := by
  split
  next he => exact (beq_iff_eq.1 he).symm
  next => rfl

theorem key_of_find? {k : κ} (h : rows.find? (fun s => key s == k) = some r) : key r = k :=
  beq_iff_eq.1 (List.find?_some (p := fun s => key s == k) h)

variable [DecidableEq κ]

/-- A row that takes the place of one with its key is found at that key only. -/
theorem find?_replaced (hold : rows.find? (fun s => key s == key r) = some old) (k : κ) :
    (rows.map fun s => if key s == key r then r else s).find? (fun s => key s == k) =
      if k = key r then some r else rows.find? fun s => key s == k := by
  rw [List.find?_map]
  simp only [Function.comp_def, key_replaced]
  split
  next hk => rw [hk, hold, Option.map_some, if_pos (beq_iff_eq.2 (key_of_find? hold))]
  next hk =>
    cases hs : rows.find? fun s => key s == k with
    | none => rfl
    | some s => rw [Option.map_some, if_neg fun he => hk (key_of_find? hs ▸ beq_iff_eq.1 he)]

/-- A new row is found at its key. -/
theorem find?_added (hnew : rows.find? (fun s => key s == key r) = none) (k : κ) :
    (rows ++ [r]).find? (fun s => key s == k) =
      if k = key r then some r else rows.find? fun s => key s == k := by
  rw [List.find?_append, List.find?_singleton]
  by_cases hk : k = key r
  · rw [hk, hnew, Option.none_or, if_pos rfl, if_pos BEq.rfl]
  · have hne : ¬ (key r == k) = true := fun he => hk (beq_iff_eq.1 he).symm
    rw [if_neg hk, if_neg hne, Option.or_none]

omit [DecidableEq κ] in
/-- A row that takes the place of the only one with its key passes a test in its place. -/
theorem find?_replaced_of_test {test : ρ → Bool} (hold : rows.find? test = some old)
    (hkey : key old = key r) (hone : ∀ s ∈ rows, key s = key r → s = old)
    (hr : test r = true) :
    (rows.map fun s => if key s == key r then r else s).find? test = some r := by
  have htest : ∀ s ∈ rows,
      (test ∘ fun s => if key s == key r then r else s) s = test s := by
    intro s hs
    by_cases he : key s = key r
    · rw [Function.comp_apply, if_pos (beq_iff_eq.2 he), hr, hone s hs he, List.find?_some hold]
    · rw [Function.comp_apply, if_neg fun hb => he (beq_iff_eq.1 hb)]
  rw [List.find?_map, List.find?_congr htest, hold, Option.map_some,
    if_pos (beq_iff_eq.2 hkey)]

end Rows

variable [Ord κ]

/-- The rows stand for the entries of a map. -/
structure Mirrors (key : ρ → κ) (Holds : ρ → ν → Prop) (rows : List ρ) (m : OrderedMap κ ν) :
    Prop where
  nodup : (rows.map key).Nodup
  held : ∀ r ∈ rows, ∃ v, m.get? (key r) = some v ∧ Holds r v
  kept : ∀ k v, m.get? k = some v → ∃ r ∈ rows, key r = k

namespace Mirrors

variable {key : ρ → κ} {Holds : ρ → ν → Prop} {rows : List ρ} {m : OrderedMap κ ν} {r s : ρ}
  {k : κ} {v : ν}

theorem holds_of_get? (h : Mirrors key Holds rows m) (hr : r ∈ rows)
    (hv : m.get? (key r) = some v) : Holds r v := by
  obtain ⟨v', hv', hh⟩ := h.held r hr
  exact Option.some.inj (hv'.symm.trans hv) ▸ hh

theorem exists_row (h : Mirrors key Holds rows m) (hv : m.get? k = some v) :
    ∃ r ∈ rows, key r = k ∧ Holds r v := by
  obtain ⟨r, hr, hk⟩ := h.kept k v hv
  exact ⟨r, hr, hk, h.holds_of_get? hr (hk ▸ hv)⟩

theorem get?_eq_none_iff (h : Mirrors key Holds rows m) :
    m.get? k = none ↔ ∀ r ∈ rows, key r ≠ k := by
  constructor
  · rintro hn r hr rfl
    obtain ⟨v, hv, -⟩ := h.held r hr
    rw [hn] at hv
    cases hv
  · intro hall
    cases hv : m.get? k with
    | none => rfl
    | some v =>
      obtain ⟨r, hr, hk⟩ := h.kept k v hv
      exact absurd hk (hall r hr)

/-! ### Finding -/

section Key

variable [BEq κ] [LawfulBEq κ]

theorem find?_key_eq_none (h : Mirrors key Holds rows m) (hk : m.get? k = none) :
    rows.find? (fun r => key r == k) = none :=
  List.find?_eq_none.2 fun r hr he => h.get?_eq_none_iff.1 hk r hr (beq_iff_eq.1 he)

theorem exists_find?_key (h : Mirrors key Holds rows m) (hv : m.get? k = some v) :
    ∃ r ∈ rows, rows.find? (fun r => key r == k) = some r ∧ key r = k ∧ Holds r v := by
  cases hf : rows.find? fun r => key r == k with
  | none =>
    obtain ⟨r, hr, hk, -⟩ := h.exists_row hv
    exact absurd (beq_iff_eq.2 hk) (List.find?_eq_none.1 hf r hr)
  | some r =>
    have hr := List.mem_of_find?_eq_some hf
    have hk : key r = k := beq_iff_eq.1 (List.find?_some (p := fun r => key r == k) hf)
    exact ⟨r, hr, rfl, hk, h.holds_of_get? hr (hk ▸ hv)⟩

/-- A key is found in both or in none. -/
theorem rel_find?_key (h : Mirrors key Holds rows m) (k : κ) :
    Option.Rel Holds (rows.find? fun r => key r == k) (m.get? k) := by
  cases hv : m.get? k with
  | none =>
    rw [h.find?_key_eq_none hv]
    exact .none
  | some v =>
    obtain ⟨r, -, hf, -, hh⟩ := h.exists_find?_key hv
    rw [hf]
    exact .some hh

/-- A key has a row if it has an entry. -/
theorem any_key_eq (h : Mirrors key Holds rows m) (k : κ) :
    rows.any (fun r => key r == k) = (m.get? k).isSome := by
  cases hv : m.get? k with
  | none => exact List.any_eq_false.2 (List.find?_eq_none.1 (h.find?_key_eq_none hv))
  | some v =>
    obtain ⟨r, hr, -, hk, -⟩ := h.exists_find?_key hv
    exact List.any_eq_true.2 ⟨r, hr, beq_iff_eq.2 hk⟩

end Key

section Test

variable [Std.LawfulEqOrd κ] [Std.TransOrd κ] {test : ρ → Bool} {test' : ν → Bool}

/-- A test that looks at what a row holds passes some row if it passes some value. -/
theorem any_eq (h : Mirrors key Holds rows m)
    (ht : ∀ r ∈ rows, ∀ v, Holds r v → test r = test' v) :
    rows.any test = m.values.any test' := by
  rw [Bool.eq_iff_iff, List.any_eq_true, List.any_eq_true]
  constructor
  · rintro ⟨r, hr, htr⟩
    obtain ⟨v, hv, hh⟩ := h.held r hr
    exact ⟨v, OrderedMap.mem_values_iff.2 ⟨_, hv⟩, ht r hr v hh ▸ htr⟩
  · rintro ⟨v, hv, htv⟩
    obtain ⟨k, hk⟩ := OrderedMap.mem_values_iff.1 hv
    obtain ⟨r, hr, -, hh⟩ := h.exists_row hk
    exact ⟨r, hr, ht r hr v hh ▸ htv⟩

/-- A test that passes at most one value finds the same in both. -/
theorem rel_find? (h : Mirrors key Holds rows m)
    (ht : ∀ r ∈ rows, ∀ v, Holds r v → test r = test' v)
    (hone : ∀ k k' v v', m.get? k = some v → m.get? k' = some v' → test' v = true →
      test' v' = true → k = k') :
    Option.Rel Holds (rows.find? test) (m.values.find? test') := by
  cases hf : rows.find? test with
  | none =>
    have hn : m.values.any test' = false :=
      h.any_eq ht ▸ List.any_eq_false.2 (List.find?_eq_none.1 hf)
    rw [List.find?_eq_none.2 (List.any_eq_false.1 hn)]
    exact .none
  | some r =>
    have hr := List.mem_of_find?_eq_some hf
    obtain ⟨v, hv, hh⟩ := h.held r hr
    have htv : test' v = true := ht r hr v hh ▸ List.find?_some hf
    cases hf' : m.values.find? test' with
    | none =>
      exact absurd htv (List.find?_eq_none.1 hf' v (OrderedMap.mem_values_iff.2 ⟨_, hv⟩))
    | some v' =>
      obtain ⟨k', hv'⟩ := OrderedMap.mem_values_iff.1 (List.mem_of_find?_eq_some hf')
      obtain rfl := hone _ _ v v' hv hv' htv (List.find?_some hf')
      exact .some (h.holds_of_get? hr hv')

end Test

/-! ### Changing -/

section Change

variable [Std.LawfulEqOrd κ] [Std.TransOrd κ] [DecidableEq κ]

/-- A new row is a new entry. -/
theorem append (h : Mirrors key Holds rows m) (hk : m.get? (key r) = none) (hh : Holds r v) :
    Mirrors key Holds (rows ++ [r]) (m.insert (key r) v) where
  nodup := by
    rw [List.map_append, List.map_singleton, List.nodup_append]
    refine ⟨h.nodup, List.nodup_singleton _, fun a ha b hb => ?_⟩
    obtain ⟨s, hs, rfl⟩ := List.mem_map.1 ha
    rw [List.mem_singleton.1 hb]
    exact h.get?_eq_none_iff.1 hk s hs
  held s hs := by
    rw [OrderedMap.get?_insert]
    rcases List.mem_append.1 hs with hs | hs
    · rw [if_neg (h.get?_eq_none_iff.1 hk s hs)]
      exact h.held s hs
    · rw [List.mem_singleton.1 hs, if_pos rfl]
      exact ⟨v, rfl, hh⟩
  kept k w hw := by
    rw [OrderedMap.get?_insert] at hw
    split at hw
    next hk => exact ⟨r, List.mem_append_right _ (List.mem_singleton_self r), hk.symm⟩
    next =>
      obtain ⟨s, hs, hk⟩ := h.kept k w hw
      exact ⟨s, List.mem_append_left _ hs, hk⟩

/-- A row in the place of another one with its key is an entry in the place of another one. -/
theorem replace [BEq κ] [LawfulBEq κ] (h : Mirrors key Holds rows m) {old : ν}
    (hk : m.get? (key r) = some old) (hh : Holds r v) :
    Mirrors key Holds (rows.map fun s => if key s == key r then r else s)
      (m.insert (key r) v) := by
  have hkey (s : ρ) : key (if key s == key r then r else s) = key s := Rows.key_replaced key r s
  constructor
  case nodup =>
    rw [List.map_map]
    exact (List.map_congr_left fun s _ => hkey s) ▸ h.nodup
  case held =>
    intro s' hs'
    obtain ⟨s, hs, rfl⟩ := List.mem_map.1 hs'
    rw [hkey, OrderedMap.get?_insert]
    by_cases he : key s = key r
    · rw [if_pos he, if_pos (beq_iff_eq.2 he)]
      exact ⟨v, rfl, hh⟩
    · rw [if_neg he, if_neg (mt beq_iff_eq.1 he)]
      exact h.held s hs
  case kept =>
    intro k w hw
    have hex : ∃ w, m.get? k = some w := by
      rw [OrderedMap.get?_insert] at hw
      split at hw
      next he => exact ⟨old, he ▸ hk⟩
      next => exact ⟨w, hw⟩
    obtain ⟨w, hw⟩ := hex
    obtain ⟨s, hs, hk⟩ := h.kept k w hw
    exact ⟨_, List.mem_map_of_mem hs, (hkey s).trans hk⟩

omit [DecidableEq κ] in
/-- Dropping rows by their keys is dropping entries. -/
theorem filter (h : Mirrors key Holds rows m) (p : κ → Bool) :
    Mirrors key Holds (rows.filter fun r => p (key r)) (m.filter fun k _ => p k) where
  nodup := h.nodup.sublist (List.filter_sublist.map key)
  held r hr := by
    obtain ⟨hr, hp⟩ := List.mem_filter.1 hr
    obtain ⟨v, hv, hh⟩ := h.held r hr
    exact ⟨v, by rw [OrderedMap.get?_filter, hv, Option.filter_some, if_pos hp], hh⟩
  kept k v hv := by
    rw [OrderedMap.get?_filter, Option.filter_eq_some_iff] at hv
    obtain ⟨r, hr, rfl⟩ := h.kept k v hv.1
    exact ⟨r, List.mem_filter.2 ⟨hr, hv.2⟩, rfl⟩

end Change

/-! ### Reading everything -/

section Read

variable [Std.LawfulEqOrd κ] [Std.TransOrd κ]

theorem perm_keys (h : Mirrors key Holds rows m) : (rows.map key).Perm m.keys := by
  refine (List.perm_ext_iff_of_nodup h.nodup m.nodup_keys).2 fun k => ?_
  rw [OrderedMap.mem_keys_iff, OrderedMap.contains_iff, List.mem_map]
  constructor
  · rintro ⟨r, hr, rfl⟩
    obtain ⟨v, hv, -⟩ := h.held r hr
    exact ⟨v, hv⟩
  · rintro ⟨v, hv⟩
    exact h.kept k v hv

/-- There are as many rows as entries. -/
theorem length_eq (h : Mirrors key Holds rows m) : rows.length = m.size := by
  have := h.perm_keys.length_eq
  rwa [List.length_map, OrderedMap.keys, List.length_map] at this

/-- The rows hold the values of the map in some order. -/
theorem exists_values (h : Mirrors key Holds rows m) :
    ∃ vs, List.Forall₂ Holds rows vs ∧ vs.Perm m.values := by
  refine ⟨(rows.map key).filterMap m.get?, ?_, ?_⟩
  · have hall (rs : List ρ) (hrs : ∀ r ∈ rs, r ∈ rows) :
        List.Forall₂ Holds rs ((rs.map key).filterMap m.get?) := by
      induction rs with
      | nil => exact .nil
      | cons r rs ih =>
        obtain ⟨v, hv, hh⟩ := h.held r (hrs r List.mem_cons_self)
        rw [List.map_cons, List.filterMap_cons_some hv]
        exact .cons hh (ih fun s hs => hrs s (List.mem_cons_of_mem r hs))
    exact hall rows fun _ hr => hr
  · rw [← OrderedMap.filterMap_keys]
    exact h.perm_keys.filterMap _

/-- Reading all rows answers the values in some order. -/
theorem exists_mapM (h : Mirrors key Holds rows m) {μ : Type} {f : ρ → Answer μ} {g : ν → μ}
    (hf : ∀ r v, Holds r v → f r = .ok (g v)) :
    ∃ vs : List ν, rows.mapM f = .ok (vs.map g) ∧ vs.Perm m.values := by
  obtain ⟨vs, hrows, hperm⟩ := h.exists_values
  refine ⟨vs, ?_, hperm⟩
  clear hperm h
  induction hrows with
  | nil => rfl
  | cons hh _ ih =>
    rw [List.mapM_cons, hf _ _ hh, ih]
    rfl

end Read

end Mirrors

end AuthCore
