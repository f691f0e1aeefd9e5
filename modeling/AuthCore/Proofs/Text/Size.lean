import AuthCore.Text.Base64
import AuthCore.Text.Replace

/-!
# Sizes of texts

The size of a text in bytes is what the sizes of its characters add up to. So replacing a pattern by
one of two texts of the same size gives texts of the same size.
-/

namespace AuthCore.Text

theorem length_utf8 (s : String) : (utf8 s).length = s.utf8ByteSize := rfl

theorem utf8ByteSize_cons (c : Char) (cs : List Char) :
    (String.ofList (c :: cs)).utf8ByteSize = c.utf8Size + (String.ofList cs).utf8ByteSize := by
  have h : String.ofList (c :: cs) = String.singleton c ++ String.ofList cs := by simp
  rw [h, String.utf8ByteSize_append, String.utf8ByteSize_singleton]

theorem utf8ByteSize_append (cs ds : List Char) : (String.ofList (cs ++ ds)).utf8ByteSize =
    (String.ofList cs).utf8ByteSize + (String.ofList ds).utf8ByteSize := by
  rw [String.ofList_append, String.utf8ByteSize_append]

/-- A text of characters that take one byte each. -/
theorem utf8ByteSize_of_forall {cs : List Char} (h : ∀ c ∈ cs, c.utf8Size = 1) :
    (String.ofList cs).utf8ByteSize = cs.length := by
  induction cs with
  | nil => rfl
  | cons c cs ih =>
    obtain ⟨hc, hcs⟩ := List.forall_mem_cons.1 h
    rw [utf8ByteSize_cons, hc, ih hcs, List.length_cons, Nat.add_comm]

/-- Every character has a byte at least. -/
theorem length_le_utf8ByteSize (s : String) : s.toList.length ≤ s.utf8ByteSize := by
  have h (cs : List Char) : cs.length ≤ (String.ofList cs).utf8ByteSize := by
    induction cs with
    | nil => exact Nat.le_refl 0
    | cons c cs ih =>
      have hc := c.utf8Size_pos
      rw [List.length_cons, utf8ByteSize_cons]
      omega
  simpa using h s.toList

/-- The size of a text in which a pattern is replaced depends only on the size of what takes its
place. -/
theorem utf8ByteSize_replace (s pattern : String) {new new' : String}
    (h : new.utf8ByteSize = new'.utf8ByteSize) :
    (replace s pattern new).utf8ByteSize = (replace s pattern new').utf8ByteSize := by
  have hfrom (skip : Nat) (cs : List Char) :
      (String.ofList (replaceFrom pattern.toList new.toList skip cs)).utf8ByteSize =
        (String.ofList (replaceFrom pattern.toList new'.toList skip cs)).utf8ByteSize := by
    induction cs generalizing skip with
    | nil => rfl
    | cons c cs ih =>
      cases skip with
      | succ k => exact ih k
      | zero =>
        simp only [replaceFrom]
        split
        · rw [utf8ByteSize_append, utf8ByteSize_append, String.ofList_toList,
            String.ofList_toList, h, ih]
        · rw [utf8ByteSize_cons, utf8ByteSize_cons, ih]
  exact hfrom 0 s.toList

end AuthCore.Text
