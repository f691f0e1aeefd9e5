import AuthCore.Proofs.Text.Lowercase
import AuthCore.Text.Blank
import Mathlib.Data.List.DropRight

/-!
# Lower case leaves nothing to trim

A text that begins and ends with characters that are not blank (`Trimmed`) is what trimming leaves.
The lower case of such a text is of this kind as well: no character becomes blank, because the runs
of `lowerRuns` stay clear of the ranges of blanks, and none is left out. So texts in lower case and
without blanks around them are a normal form.
-/

namespace AuthCore.Text

variable {cs before after : List Char} {c d : Char}

/-! ### Trimming -/

/-- The first and the last character are not blank. -/
structure Trimmed (cs : List Char) : Prop where
  head : ∀ h : cs ≠ [], isBlank (cs.head h) = false
  last : ∀ h : cs ≠ [], isBlank (cs.getLast h) = false

theorem trimmed_trimList (cs : List Char) : Trimmed (trimList cs) where
  head h := by
    have hfront : trimList cs <+: cs.dropWhile isBlank := List.rdropWhile_prefix isBlank _
    rw [hfront.head h]
    exact List.head_dropWhile_not isBlank _
  last h := Bool.eq_false_iff.2 (List.rdropWhile_last_not isBlank _ h)

/-- Nothing is trimmed off a trimmed text. -/
theorem Trimmed.trimList_eq (h : Trimmed cs) : trimList cs = cs := by
  have hfront : cs.dropWhile isBlank = cs := by
    refine List.dropWhile_eq_self_iff.2 fun hl => ?_
    rw [← List.head_eq_getElem (List.ne_nil_of_length_pos hl), h.head]
    exact Bool.false_ne_true
  have hback : cs.rdropWhile isBlank = cs := by
    refine List.rdropWhile_eq_self_iff.2 fun hne => ?_
    rw [h.last hne]
    exact Bool.false_ne_true
  rw [trimList, hfront]
  exact hback

/-! ### Blanks in lower case -/

/-- The ranges of blanks, as runs. -/
def blankRuns : List LowerRun := blankRanges.map fun r => ⟨r.1, r.2, 1, 0⟩

theorem isBlank_eq_any (c : Char) : isBlank c = blankRuns.any fun r => r.holds c.toNat := by
  rw [blankRuns, List.any_map, isBlank]
  refine congrArg (blankRanges.any ·) (funext fun r => ?_)
  simp only [Function.comp_apply, LowerRun.holds, Nat.mod_one, beq_self_eq_true, Bool.and_true]

/-- The small letter of a capital is not blank. -/
theorem isBlank_small {r : LowerRun} (hr : r ∈ lowerRuns) {n : Nat} (hn : r.holds n = true) :
    isBlank (Char.ofNat (r.small n)) = false := by
  have hall : (lowerRuns.all fun r => blankRuns.all fun s => r.avoids s) = true := by
    decide +kernel
  by_cases hv : (r.small n).isValidChar
  · have hnat : (Char.ofNat (r.small n)).toNat = r.small n := by
      rw [Char.ofNat, dif_pos hv]
      rfl
    rw [isBlank_eq_any, List.any_eq_false]
    intro s hs
    rw [hnat, LowerRun.holds_small_of_avoids
      (List.all_eq_true.1 (List.all_eq_true.1 hall r hr) s hs) hn]
    exact Bool.false_ne_true
  · rw [Char.ofNat, dif_neg hv]
    decide

theorem isBlank_lowerChar (h : isBlank c = false) : isBlank (lowerChar c) = false := by
  unfold lowerChar
  split
  next hascii =>
    have hsame : ∀ n < 0x80, isBlank (Char.ofNat n).toLower = isBlank (Char.ofNat n) := by decide
    have hc := hsame c.toNat hascii
    rw [Char.ofNat_toNat] at hc
    rw [hc, h]
  next =>
    split
    next r hr =>
      have hheld : r.holds c.toNat = true := by simpa using List.find?_some hr
      exact isBlank_small (List.mem_of_find?_eq_some hr) hheld
    next => exact h

theorem isBlank_of_mem_lowerAt (h : isBlank c = false) (hd : d ∈ lowerAt before c after) :
    isBlank d = false := by
  unfold lowerAt at hd
  split at hd
  · split at hd
    · exact List.mem_singleton.1 hd ▸ by decide
    · exact List.mem_singleton.1 hd ▸ by decide
  · split at hd
    · rcases List.mem_cons.1 hd with rfl | hd
      · decide
      · exact List.mem_singleton.1 hd ▸ by decide
    · exact List.mem_singleton.1 hd ▸ isBlank_lowerChar h

/-! ### Ends in lower case -/

theorem isBlank_head_lowerFrom (hc : isBlank c = false) (h : lowerFrom before (c :: cs) ≠ []) :
    isBlank ((lowerFrom before (c :: cs)).head h) = false := by
  have hhead : (lowerFrom before (c :: cs)).head h = (lowerAt before c cs).head _ :=
    List.head_append_of_ne_nil (lowerAt_ne_nil before c cs)
  rw [hhead]
  exact isBlank_of_mem_lowerAt hc (List.head_mem _)

theorem isBlank_getLast_lowerFrom (hne : cs ≠ []) (hc : isBlank (cs.getLast hne) = false)
    (h : lowerFrom before cs ≠ []) : isBlank ((lowerFrom before cs).getLast h) = false := by
  induction cs generalizing before with
  | nil => exact absurd rfl hne
  | cons c cs ih =>
    cases cs with
    | nil =>
      have hlast : (lowerFrom before [c]).getLast h ∈ lowerAt before c [] ++ [] :=
        List.getLast_mem h
      rw [List.append_nil] at hlast
      exact isBlank_of_mem_lowerAt hc hlast
    | cons d cs =>
      have hrest : lowerFrom (c :: before) (d :: cs) ≠ [] :=
        List.append_ne_nil_of_left_ne_nil (lowerAt_ne_nil _ d cs) _
      rw [List.getLast_congr h (List.append_ne_nil_of_right_ne_nil _ hrest) rfl,
        List.getLast_append_of_right_ne_nil _ _ hrest]
      exact ih (List.cons_ne_nil d cs) (List.getLast_cons (List.cons_ne_nil d cs) ▸ hc) hrest

/-- Lower case leaves a text trimmed. -/
theorem Trimmed.lowerFrom (h : Trimmed cs) (before : List Char) :
    Trimmed (lowerFrom before cs) := by
  cases cs with
  | nil => exact ⟨fun h => absurd rfl h, fun h => absurd rfl h⟩
  | cons c cs =>
    have hne : c :: cs ≠ [] := List.cons_ne_nil c cs
    exact ⟨isBlank_head_lowerFrom (h.head hne), isBlank_getLast_lowerFrom hne (h.last hne)⟩

@[simp] theorem trim_lower_trim (s : String) : trim (lower (trim s)) = lower (trim s) := by
  have htrimmed : Trimmed (lowerFrom [] (trim s).toList) := by
    rw [trim, String.toList_ofList]
    exact (trimmed_trimList s.toList).lowerFrom []
  rw [trim, lower, String.toList_ofList, htrimmed.trimList_eq]

end AuthCore.Text
