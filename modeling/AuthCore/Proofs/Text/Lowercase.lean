import AuthCore.Text.Lowercase
import Mathlib.Data.List.TakeWhile

/-!
# Lower case is a normal form

A text in lower case has no capital left in it, so bringing it to lower case once more changes
nothing. The capitals are the runs of `lowerRuns`, those of ASCII and the capital I with a dot. That
no small letter is a capital is a property of the tables, found by comparing their runs in pairs.
-/

namespace AuthCore.Text

namespace LowerRun

/-- Where the small letter of a capital of a run lies. -/
def small (r : LowerRun) (n : Nat) : Nat := (n + r.shift).toNat

/-- Whether no small letter of a run is a capital of another one. Two runs that lie apart need no
look at their letters. -/
def avoids (r s : LowerRun) : Bool :=
  s.last.blt (r.small r.first) || (r.small r.last).blt s.first ||
    (List.range (r.last + 1 - r.first)).all fun i =>
      !(r.holds (r.first + i) && s.holds (r.small (r.first + i)))

variable {r s : LowerRun} {n m : Nat}

theorem small_mono (h : n ≤ m) : r.small n ≤ r.small m :=
  Int.toNat_le_toNat (by omega)

theorem holds_bounds (h : r.holds n = true) : r.first ≤ n ∧ n ≤ r.last := by
  simp only [holds, Bool.and_eq_true, decide_eq_true_eq] at h
  exact h.1

theorem holds_small_of_avoids (h : r.avoids s = true) (hn : r.holds n = true) :
    s.holds (r.small n) = false := by
  obtain ⟨hfirst, hlast⟩ := holds_bounds hn
  simp only [avoids, Bool.or_eq_true, Nat.blt_eq, List.all_eq_true, List.mem_range] at h
  by_contra hs
  rw [Bool.not_eq_false] at hs
  obtain ⟨hsfirst, hslast⟩ := holds_bounds hs
  rcases h with (h | h) | h
  · have hle : r.small r.first ≤ r.small n := small_mono hfirst
    omega
  · have hle : r.small n ≤ r.small r.last := small_mono hlast
    omega
  · have hi := h (n - r.first) (by omega)
    rw [Nat.add_sub_cancel' hfirst, hn, hs] at hi
    cases hi

end LowerRun

/-- All characters that differ from their lower case. -/
def capitals : List LowerRun :=
  ⟨0x0041, 0x005A, 1, 32⟩ :: ⟨0x0130, 0x0130, 1, -199⟩ :: lowerRuns

theorem avoids_of_mem {r s : LowerRun} (hr : r ∈ capitals) (hs : s ∈ capitals) :
    r.avoids s = true := by
  have hall : (capitals.all fun r => capitals.all fun s => r.avoids s) = true := by decide +kernel
  exact List.all_eq_true.1 (List.all_eq_true.1 hall r hr) s hs

/-- A character that is not a capital. -/
def IsSmall (c : Char) : Prop := ∀ r ∈ capitals, r.holds c.toNat = false

instance : DecidablePred IsSmall :=
  fun c => inferInstanceAs (Decidable (∀ r ∈ capitals, r.holds c.toNat = false))

/-- The small letter of a capital is not a capital. A place that is no character counts as the
character zero, which is none either. -/
theorem isSmall_small {r : LowerRun} (hr : r ∈ capitals) {n : Nat} (hn : r.holds n = true) :
    IsSmall (Char.ofNat (r.small n)) := by
  by_cases hv : (r.small n).isValidChar
  · have hnat : (Char.ofNat (r.small n)).toNat = r.small n := by
      rw [Char.ofNat, dif_pos hv]
      rfl
    intro s hs
    rw [hnat]
    exact LowerRun.holds_small_of_avoids (avoids_of_mem hr hs) hn
  · have hzero : IsSmall (Char.ofNat 0) := by decide +kernel
    rw [Char.ofNat, dif_neg hv]
    exact hzero

/-- The only capitals of ASCII are those of the first run. -/
theorem isSmall_of_ascii {c : Char} (hc : c.toNat < 0x80)
    (h : LowerRun.holds ⟨0x0041, 0x005A, 1, 32⟩ c.toNat = false) : IsSmall c := by
  have hfirst : (capitals.tail.all fun r => Nat.ble 0x80 r.first) = true := by decide +kernel
  intro r hr
  rcases List.mem_cons.1 hr with rfl | hr
  · exact h
  · have hle : 0x80 ≤ r.first := Nat.le_of_ble_eq_true (List.all_eq_true.1 hfirst r hr)
    by_contra hheld
    rw [Bool.not_eq_false] at hheld
    have hbound := (LowerRun.holds_bounds hheld).1
    omega

theorem isSmall_toLower {c : Char} (hc : c.toNat < 0x80) : IsSmall c.toLower := by
  have hascii : ∀ n < 0x80, (Char.ofNat n).toLower.toNat < 0x80 ∧
      LowerRun.holds ⟨0x0041, 0x005A, 1, 32⟩ (Char.ofNat n).toLower.toNat = false := by decide
  obtain ⟨hlow, hsmall⟩ := hascii c.toNat hc
  rw [Char.ofNat_toNat] at hlow hsmall
  exact isSmall_of_ascii hlow hsmall

theorem isSmall_lowerChar {c : Char} (h : c ≠ '\u0130') : IsSmall (lowerChar c) := by
  by_cases hascii : c.toNat < 0x80
  · rw [lowerChar, if_pos hascii]
    exact isSmall_toLower hascii
  · rw [lowerChar, if_neg hascii]
    split
    next r hr =>
      have hheld : r.holds c.toNat = true := by simpa using List.find?_some hr
      exact isSmall_small
        (List.mem_cons_of_mem _ (List.mem_cons_of_mem _ (List.mem_of_find?_eq_some hr))) hheld
    next hnone =>
      intro r hr
      by_contra hheld
      rw [Bool.not_eq_false] at hheld
      obtain ⟨hfirst, hlast⟩ := LowerRun.holds_bounds hheld
      rcases List.mem_cons.1 hr with rfl | hr
      · exact hascii (Nat.lt_of_le_of_lt hlast (by decide))
      · rcases List.mem_cons.1 hr with rfl | hr
        · exact h (Char.toNat_inj.1 (Nat.le_antisymm hlast hfirst))
        · exact List.find?_eq_none.1 hnone r hr hheld

theorem lowerChar_of_isSmall {c : Char} (h : IsSmall c) : lowerChar c = c := by
  unfold lowerChar
  split
  · refine dif_neg fun hupper => ?_
    have hheld : LowerRun.holds ⟨0x0041, 0x005A, 1, 32⟩ c.toNat = true := by
      have hbounds : 0x41 ≤ c.toNat ∧ c.toNat ≤ 0x5A := hupper
      simp [LowerRun.holds, hbounds, Nat.mod_one]
    rw [h _ List.mem_cons_self] at hheld
    cases hheld
  · rw [List.find?_eq_none.2]
    intro r hr
    rw [h r (List.mem_cons_of_mem _ (List.mem_cons_of_mem _ hr))]
    exact Bool.false_ne_true

theorem isSmall_of_mem_lowerAt {before after : List Char} {c d : Char}
    (h : d ∈ lowerAt before c after) : IsSmall d := by
  unfold lowerAt at h
  split at h
  · have hsigma : IsSmall '\u03C2' ∧ IsSmall '\u03C3' := by decide +kernel
    split at h
    · exact List.mem_singleton.1 h ▸ hsigma.1
    · exact List.mem_singleton.1 h ▸ hsigma.2
  · split at h
    · have hdotted : IsSmall 'i' ∧ IsSmall '\u0307' := by decide +kernel
      rcases List.mem_cons.1 h with rfl | h
      · exact hdotted.1
      · exact List.mem_singleton.1 h ▸ hdotted.2
    next hne => exact List.mem_singleton.1 h ▸ isSmall_lowerChar hne

/-- Neither of the two characters with rules of their own is small, so a small one is looked up by
itself, whatever stands around it. -/
theorem lowerAt_of_isSmall {before after : List Char} {c : Char} (h : IsSmall c) :
    lowerAt before c after = [c] := by
  have hcapital : ¬IsSmall '\u03A3' ∧ ¬IsSmall '\u0130' := by decide +kernel
  have hsigma : c ≠ '\u03A3' := fun he => hcapital.1 (he ▸ h)
  have hdotted : c ≠ '\u0130' := fun he => hcapital.2 (he ▸ h)
  rw [lowerAt, if_neg hsigma, if_neg hdotted, lowerChar_of_isSmall h]

theorem isSmall_of_mem_lowerFrom {before cs : List Char} {d : Char}
    (h : d ∈ lowerFrom before cs) : IsSmall d := by
  induction cs generalizing before with
  | nil => cases h
  | cons c cs ih =>
    rcases List.mem_append.1 h with h | h
    · exact isSmall_of_mem_lowerAt h
    · exact ih h

theorem lowerFrom_of_isSmall {before cs : List Char} (h : ∀ c ∈ cs, IsSmall c) :
    lowerFrom before cs = cs := by
  induction cs generalizing before with
  | nil => rfl
  | cons c cs ih =>
    have hrest : ∀ d ∈ cs, IsSmall d := fun d hd => h d (List.mem_cons_of_mem _ hd)
    rw [lowerFrom, lowerAt_of_isSmall (h c List.mem_cons_self), ih hrest, List.singleton_append]

/-- Lower case is a normal form. -/
@[simp] theorem lower_lower (s : String) : lower (lower s) = lower s := by
  unfold lower
  rw [String.toList_ofList, lowerFrom_of_isSmall fun _ hc => isSmall_of_mem_lowerFrom hc]

theorem lowerAt_ne_nil (before : List Char) (c : Char) (after : List Char) :
    lowerAt before c after ≠ [] := by
  unfold lowerAt
  split
  · exact List.cons_ne_nil _ _
  · split <;> exact List.cons_ne_nil _ _

/-- No character is left out in lower case. -/
@[simp] theorem lower_eq_empty_iff {s : String} : lower s = "" ↔ s = "" := by
  rw [lower, String.ofList_eq_empty_iff, ← String.toList_eq_nil_iff]
  cases s.toList with
  | nil => exact iff_of_true rfl rfl
  | cons c cs =>
    exact iff_of_false (List.append_ne_nil_of_left_ne_nil (lowerAt_ne_nil _ c cs) _)
      (List.cons_ne_nil c cs)

end AuthCore.Text
