import AuthCore.Json.Printer
import AuthCore.Json.Reader

/-!
# Printed texts read back

A text between quotes reads back as itself, whatever characters it has.
-/

namespace AuthCore.Json

/-- Control characters are written with four digits, of which only the last two count. -/
theorem unicode?_control {n : Nat} (hn : n < 0x20) (rest : List Char) :
    unicode? ('0' :: '0' :: Text.hexDigit (n / 16) :: Text.hexDigit (n % 16) :: rest) =
      some (Char.ofNat n, rest) := by
  have h : ∀ n < 0x20, Text.hexValue? (Text.hexDigit (n / 16)) = some (n / 16) ∧
      Text.hexValue? (Text.hexDigit (n % 16)) = some (n % 16) := by decide
  obtain ⟨hq, hr⟩ := h n hn
  have h0 : Text.hexValue? '0' = some 0 := by decide
  have hv : ((0 * 16 + 0) * 16 + n / 16) * 16 + n % 16 = n := by omega
  simp only [unicode?, hex4?, h0, hq, hr, Option.bind_eq_bind, Option.bind_some, hv]
  rw [if_neg (by simp; omega), if_neg (by simp; omega)]

/-- A character reads back from what stands for it between quotes. -/
theorem quoted?_escape (fuel : Nat) (c : Char) (rest : List Char) :
    quoted? (fuel + 1) (escape c ++ rest) =
      (quoted? fuel rest).map fun r => (c :: r.1, r.2) := by
  unfold escape
  by_cases h₁ : c = '"'
  · subst h₁
    cases h : quoted? fuel rest <;> simp [quoted?, escaped?, h]
  by_cases h₂ : c = '\\'
  · subst h₂
    cases h : quoted? fuel rest <;> simp [quoted?, escaped?, h]
  by_cases h₃ : c = '\n'
  · subst h₃
    cases h : quoted? fuel rest <;> simp [quoted?, escaped?, h]
  by_cases h₄ : c = '\r'
  · subst h₄
    cases h : quoted? fuel rest <;> simp [quoted?, escaped?, h]
  by_cases h₅ : c = '\t'
  · subst h₅
    cases h : quoted? fuel rest <;> simp [quoted?, escaped?, h]
  by_cases h₆ : c = '\x08'
  · subst h₆
    cases h : quoted? fuel rest <;> simp [quoted?, escaped?, h]
  by_cases h₇ : c = '\x0c'
  · subst h₇
    cases h : quoted? fuel rest <;> simp [quoted?, escaped?, h]
  rw [if_neg h₁, if_neg h₂, if_neg h₃, if_neg h₄, if_neg h₅, if_neg h₆, if_neg h₇]
  by_cases h : c.toNat < 0x20
  · rw [if_pos h]
    cases hq : quoted? fuel rest <;> simp [quoted?, escaped?, unicode?_control h, hq]
  · rw [if_neg h]
    cases hq : quoted? fuel rest <;> simp [quoted?, h₁, h₂, h, hq]

theorem quoted?_quote (cs rest : List Char) {fuel : Nat} (h : cs.length < fuel) :
    quoted? fuel (cs.flatMap escape ++ '"' :: rest) = some (cs, rest) := by
  induction cs generalizing fuel with
  | nil =>
    obtain ⟨fuel, rfl⟩ := Nat.exists_eq_add_of_lt h
    simp [quoted?]
  | cons c cs ih =>
    obtain ⟨fuel, rfl⟩ := Nat.exists_eq_add_of_lt (Nat.zero_lt_of_lt h)
    rw [List.flatMap_cons, List.append_assoc, Nat.zero_add, quoted?_escape,
      ih (by simp at h; omega)]
    rfl

theorem length_le_flatMap_escape (cs : List Char) : cs.length ≤ (cs.flatMap escape).length := by
  induction cs with
  | nil => exact Nat.le_refl 0
  | cons c cs ih =>
    have hc : 1 ≤ (escape c).length := by
      unfold escape
      repeat' split
      all_goals simp
    rw [List.flatMap_cons, List.length_append, List.length_cons]
    omega

/-- What is read behind an opening quote is the text up to its closing quote. -/
theorem quoted?_of_quote (s : String) (rest : List Char) :
    quoted? ((s.toList.flatMap escape ++ '"' :: rest).length + 1)
      (s.toList.flatMap escape ++ '"' :: rest) = some (s.toList, rest) := by
  have hlength := length_le_flatMap_escape s.toList
  exact quoted?_quote s.toList rest (by rw [List.length_append]; omega)

theorem quote_append (s : String) (rest : List Char) :
    quote s ++ rest = '"' :: (s.toList.flatMap escape ++ '"' :: rest) := by
  rw [quote, List.cons_append, List.append_assoc]
  rfl

end AuthCore.Json
