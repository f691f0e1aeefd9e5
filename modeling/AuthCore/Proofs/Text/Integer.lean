import AuthCore.Text.Integer
import Mathlib.Data.Nat.Digits.Defs

/-!
# Printed integers read back

The decimal text of a number is made of digits and reads back as the number, so a signed integer of
a number of bits reads its own text exactly if it is in its range. There are other texts of a
number, with leading zeros or with a plus sign; `Spells` says which ones are read.
-/

namespace AuthCore.Text

/-- Whether a character is an ASCII digit. -/
def IsDigit (c : Char) : Prop := (digit? c).isSome = true

instance : DecidablePred IsDigit := fun c => inferInstanceAs (Decidable ((digit? c).isSome = true))

theorem digit?_ofNat : ∀ d < 10, digit? (Char.ofNat ('0'.toNat + d)) = some d := by decide

theorem foldDigits_append (ds es : List Char) (acc : Nat) :
    foldDigits acc (ds ++ es) = (foldDigits acc ds).bind fun n => foldDigits n es := by
  induction ds generalizing acc with
  | nil => rfl
  | cons c ds ih =>
    simp only [List.cons_append, foldDigits]
    cases digit? c with
    | none => rfl
    | some d => exact ih (acc * 10 + d)

theorem foldDigits_singleton {d : Nat} (h : d < 10) (acc : Nat) :
    foldDigits acc [Char.ofNat ('0'.toNat + d)] = some (acc * 10 + d) := by
  simp only [foldDigits, digit?_ofNat d h, Option.bind_some]

theorem foldDigits_naturalDigits (n : Nat) : foldDigits 0 (naturalDigits n) = some n := by
  induction n using naturalDigits.induct with
  | case1 n h =>
    rw [naturalDigits, if_pos h, foldDigits_singleton h, Nat.zero_mul, Nat.zero_add]
  | case2 n h ih =>
    rw [naturalDigits, if_neg h, foldDigits_append, ih, Option.bind_some,
      foldDigits_singleton (Nat.mod_lt n (by omega))]
    congr 1
    omega

theorem naturalDigits_ne_nil (n : Nat) : naturalDigits n ≠ [] := by
  rw [naturalDigits]
  split <;> simp

theorem isDigit_of_mem_naturalDigits {c : Char} (n : Nat) (h : c ∈ naturalDigits n) :
    IsDigit c := by
  have hd (d : Nat) (hd : d < 10) : IsDigit (Char.ofNat ('0'.toNat + d)) := by
    rw [IsDigit, digit?_ofNat d hd, Option.isSome_some]
  induction n using naturalDigits.induct with
  | case1 n hn =>
    rw [naturalDigits, if_pos hn, List.mem_singleton] at h
    exact h ▸ hd n hn
  | case2 n hn ih =>
    rw [naturalDigits, if_neg hn, List.mem_append, List.mem_singleton] at h
    rcases h with h | h
    · exact ih h
    · exact h ▸ hd (n % 10) (Nat.mod_lt n (by omega))

theorem natural?_naturalDigits (n : Nat) : natural? (naturalDigits n) = some n := by
  have h := foldDigits_naturalDigits n
  cases hd : naturalDigits n with
  | nil => exact absurd hd (naturalDigits_ne_nil n)
  | cons c cs => rwa [hd] at h

/-- Digits in front are no sign. -/
theorem integer?_of_isDigit {c : Char} (h : IsDigit c) (cs : List Char) :
    integer? (c :: cs) = (natural? (c :: cs)).map fun n => (n : Int) := by
  have hm : c ≠ '-' := by
    rintro rfl
    exact absurd h (by decide)
  have hp : c ≠ '+' := by
    rintro rfl
    exact absurd h (by decide)
  unfold integer?
  split
  next heq => exact absurd (List.cons.inj heq).1 hm
  next heq => exact absurd (List.cons.inj heq).1 hp
  next => rfl

theorem integer?_naturalDigits (n : Nat) : integer? (naturalDigits n) = some (n : Int) := by
  have hn := natural?_naturalDigits n
  cases hd : naturalDigits n with
  | nil => exact absurd hd (naturalDigits_ne_nil n)
  | cons c cs =>
    have hc : IsDigit c := isDigit_of_mem_naturalDigits n (hd ▸ List.mem_cons_self)
    rw [integer?_of_isDigit hc, ← hd, hn]
    rfl

theorem integer?_integerDigits (i : Int) : integer? (integerDigits i) = some i := by
  cases i with
  | ofNat n => exact integer?_naturalDigits n
  | negSucc n =>
    rw [integerDigits, integer?, natural?_naturalDigits]
    rfl

theorem integerDigits_ne_nil (i : Int) : integerDigits i ≠ [] := by
  cases i with
  | ofNat n => exact naturalDigits_ne_nil n
  | negSucc n => exact List.cons_ne_nil _ _

/-- A number reads its own text if it has enough bits. -/
theorem signed?_showInt (bits : Nat) (i : Int) :
    signed? bits (showInt i) =
      (some i).filter fun i => -(2 ^ (bits - 1) : Int) ≤ i && i < (2 ^ (bits - 1) : Int) := by
  rw [signed?, showInt, String.toList_ofList, integer?_integerDigits]

theorem mem_integerDigits {c : Char} {i : Int} (h : c ∈ integerDigits i) : c = '-' ∨ IsDigit c := by
  cases i with
  | ofNat n => exact .inr (isDigit_of_mem_naturalDigits n h)
  | negSucc n =>
    rcases List.mem_cons.1 h with h | h
    · exact .inl h
    · exact .inr (isDigit_of_mem_naturalDigits (n + 1) h)

/-! ### All texts of a number -/

/-- The number that decimal digits write, the most significant one first. -/
def decimal (ds : List Char) : Nat := Nat.ofDigits 10 (ds.reverse.map fun c => c.toNat - '0'.toNat)

/-- A text is an optional sign and one or more digits, and writes a number. -/
inductive Spells : List Char → Int → Prop where
  | bare {ds : List Char} (hd : ∀ c ∈ ds, '0' ≤ c ∧ c ≤ '9') (hne : ds ≠ []) :
    Spells ds (decimal ds)
  | plus {ds : List Char} (hd : ∀ c ∈ ds, '0' ≤ c ∧ c ≤ '9') (hne : ds ≠ []) :
    Spells ('+' :: ds) (decimal ds)
  | minus {ds : List Char} (hd : ∀ c ∈ ds, '0' ≤ c ∧ c ≤ '9') (hne : ds ≠ []) :
    Spells ('-' :: ds) (-decimal ds)

theorem digit?_eq_some_iff {c : Char} {d : Nat} :
    digit? c = some d ↔ ('0' ≤ c ∧ c ≤ '9') ∧ c.toNat - '0'.toNat = d := by
  rw [digit?, Option.ite_none_right_eq_some, Option.some.injEq]

theorem decimal_cons (c : Char) (ds : List Char) :
    decimal (c :: ds) = (c.toNat - '0'.toNat) * 10 ^ ds.length + decimal ds := by
  rw [decimal, List.reverse_cons, List.map_append, Nat.ofDigits_append, List.length_map,
    List.length_reverse, List.map_singleton, Nat.ofDigits_singleton, decimal]
  ring

/-- Digits are read as the number that they write, after the number read before. -/
theorem foldDigits_eq_some_iff {acc n : Nat} {ds : List Char} :
    foldDigits acc ds = some n ↔
      (∀ c ∈ ds, '0' ≤ c ∧ c ≤ '9') ∧ n = acc * 10 ^ ds.length + decimal ds := by
  induction ds generalizing acc with
  | nil => simp [foldDigits, decimal, eq_comm]
  | cons c ds ih =>
    have hsum : acc * 10 ^ (ds.length + 1) + ((c.toNat - '0'.toNat) * 10 ^ ds.length + decimal ds) =
        (acc * 10 + (c.toNat - '0'.toNat)) * 10 ^ ds.length + decimal ds := by ring
    simp only [foldDigits, Option.bind_eq_some_iff, digit?_eq_some_iff, ih, List.forall_mem_cons,
      List.length_cons, decimal_cons, hsum]
    constructor
    · rintro ⟨d, ⟨hc, rfl⟩, hd, rfl⟩
      exact ⟨⟨hc, hd⟩, rfl⟩
    · rintro ⟨⟨hc, hd⟩, rfl⟩
      exact ⟨_, ⟨hc, rfl⟩, hd, rfl⟩

theorem natural?_eq_some_iff {n : Nat} {ds : List Char} :
    natural? ds = some n ↔ (∀ c ∈ ds, '0' ≤ c ∧ c ≤ '9') ∧ ds ≠ [] ∧ n = decimal ds := by
  cases ds with
  | nil => simp [natural?]
  | cons c ds =>
    rw [natural?, foldDigits_eq_some_iff, Nat.zero_mul, Nat.zero_add]
    · exact ⟨fun ⟨hd, hn⟩ => ⟨hd, List.cons_ne_nil c ds, hn⟩, fun ⟨hd, _, hn⟩ => ⟨hd, hn⟩⟩
    · exact nofun

/-- The texts that are read as a number are those that write it. -/
theorem integer?_eq_some_iff {cs : List Char} {i : Int} : integer? cs = some i ↔ Spells cs i := by
  constructor
  · intro h
    unfold integer? at h
    split at h
    all_goals
      obtain ⟨_, hi, rfl⟩ := Option.map_eq_some_iff.1 h
      obtain ⟨n, hn, hi⟩ := Option.bind_eq_some_iff.1 hi
      obtain rfl := Option.some.inj hi
      obtain ⟨hd, hne, rfl⟩ := natural?_eq_some_iff.1 hn
    · exact .minus hd hne
    · exact .plus hd hne
    · exact .bare hd hne
  · intro h
    cases h with
    | plus hd hne =>
      rw [integer?, natural?_eq_some_iff.2 ⟨hd, hne, rfl⟩]
      rfl
    | minus hd hne =>
      rw [integer?, natural?_eq_some_iff.2 ⟨hd, hne, rfl⟩]
      rfl
    | bare hd hne =>
      obtain ⟨c, ds, rfl⟩ := List.exists_cons_of_ne_nil hne
      have hc : IsDigit c := by
        rw [IsDigit, digit?_eq_some_iff.2 ⟨hd c List.mem_cons_self, rfl⟩, Option.isSome_some]
      rw [integer?_of_isDigit hc, natural?_eq_some_iff.2 ⟨hd, hne, rfl⟩]
      rfl

/-- A number of some bits is read from the texts that write it. -/
theorem signed?_eq_some_iff {bits : Nat} {s : String} {i : Int} :
    signed? bits s = some i ↔
      Spells s.toList i ∧ -(2 ^ (bits - 1) : Int) ≤ i ∧ i < (2 ^ (bits - 1) : Int) := by
  rw [signed?, Option.filter_eq_some_iff, integer?_eq_some_iff, Bool.and_eq_true,
    decide_eq_true_eq, decide_eq_true_eq]

/-! ### Digits filled up with zeros -/

theorem natural?_of_ne_nil {cs : List Char} (h : cs ≠ []) : natural? cs = foldDigits 0 cs := by
  cases cs with
  | nil => exact absurd rfl h
  | cons c cs => rfl

theorem foldDigits_zeros (k : Nat) : foldDigits 0 (List.replicate k '0') = some 0 := by
  induction k with
  | zero => rfl
  | succ k ih => exact ih

theorem length_naturalDigits_le {n width : Nat} (hw : 0 < width) (h : n < 10 ^ width) :
    (naturalDigits n).length ≤ width := by
  induction n using naturalDigits.induct generalizing width with
  | case1 n hn =>
    rw [naturalDigits, if_pos hn]
    exact hw
  | case2 n hn ih =>
    obtain ⟨k, rfl⟩ : ∃ k, width = k + 1 := ⟨width - 1, by omega⟩
    have hk : 0 < k := by
      rcases Nat.eq_zero_or_pos k with rfl | hk
      · exact absurd h hn
      · exact hk
    have hle := ih hk (Nat.div_lt_of_lt_mul (by rwa [Nat.mul_comm, ← Nat.pow_succ]))
    rw [naturalDigits, if_neg hn, List.length_append, List.length_singleton]
    omega

theorem length_paddedDigits {n width : Nat} (hw : 0 < width) (h : n < 10 ^ width) :
    (paddedDigits width n).length = width := by
  have hle := length_naturalDigits_le hw h
  rw [paddedDigits, List.length_append, List.length_replicate]
  omega

theorem isDigit_of_mem_paddedDigits {c : Char} {n width : Nat} (h : c ∈ paddedDigits width n) :
    IsDigit c := by
  rcases List.mem_append.1 h with h | h
  · rw [List.eq_of_mem_replicate h]
    rfl
  · exact isDigit_of_mem_naturalDigits n h

theorem natural?_paddedDigits (width n : Nat) : natural? (paddedDigits width n) = some n := by
  have hne : paddedDigits width n ≠ [] := fun h =>
    naturalDigits_ne_nil n (List.append_eq_nil_iff.1 h).2
  rw [natural?_of_ne_nil hne, paddedDigits, foldDigits_append, foldDigits_zeros, Option.bind_some,
    foldDigits_naturalDigits]

end AuthCore.Text
