import AuthCore.Proofs.Text.Base64
import Mathlib.Data.List.Lex
import Mathlib.Data.String.Basic
import Mathlib.Tactic.SplitIfs

/-!
# The order of texts in bytes

Texts are compared character by character, and their encodings byte by byte. Both orders are the
same: the encodings of two characters differ in a byte, and the first such byte is smaller where the
character is (`Text.encodeChar_lt`). Encodings of more bytes begin with greater ones, and behind
that the bytes carry six bits each, the highest ones first.
-/

namespace AuthCore.Text

variable {m n : Nat} {x y : List UInt8}

/-! ### Bytes -/

theorem cons_lt_cons (hn : n < 256) (h : m < n ∨ m = n ∧ x < y) :
    UInt8.ofNat m :: x < UInt8.ofNat n :: y := by
  rw [List.cons_lt_cons_iff]
  rcases h with h | ⟨rfl, h⟩
  · left
    rwa [UInt8.lt_iff_toNat_lt, UInt8.toNat_ofNat_of_lt' (h.trans hn), UInt8.toNat_ofNat_of_lt' hn]
  · exact .inr ⟨rfl, h⟩

/-- Numbers are compared by their quotients first, which the leading byte shows. -/
theorem cons_lt_of_quotient {k a b : Nat} (h : m < n) (hb : b < 256)
    (hlt : m / k < n / k → a < b) (heq : m / k = n / k → a = b ∧ x < y) :
    UInt8.ofNat a :: x < UInt8.ofNat b :: y := by
  rcases (Nat.div_le_div_right h.le : m / k ≤ n / k).lt_or_eq with h | h
  · exact cons_lt_cons hb (.inl (hlt h))
  · exact cons_lt_cons hb (.inr (heq h))

/-- The byte with the last six bits. -/
theorem last_lt (h : m < n) (he : m / 64 = n / 64) :
    UInt8.ofNat (m % 64 + 128) :: x < UInt8.ofNat (n % 64 + 128) :: y :=
  cons_lt_cons (by omega) (.inl (by omega))

/-- The bytes with the last twelve bits. -/
theorem lastTwo_lt (h : m < n) (he : m / 4096 = n / 4096) :
    UInt8.ofNat (m / 64 % 64 + 128) :: UInt8.ofNat (m % 64 + 128) :: x <
      UInt8.ofNat (n / 64 % 64 + 128) :: UInt8.ofNat (n % 64 + 128) :: y :=
  cons_lt_of_quotient h (by omega) (fun _ => by omega) fun he => ⟨by rw [he], last_lt h he⟩

/-- The bytes with the last eighteen bits. -/
theorem lastThree_lt (h : m < n) (he : m / 262144 = n / 262144) :
    UInt8.ofNat (m / 4096 % 64 + 128) :: UInt8.ofNat (m / 64 % 64 + 128) ::
        UInt8.ofNat (m % 64 + 128) :: x <
      UInt8.ofNat (n / 4096 % 64 + 128) :: UInt8.ofNat (n / 64 % 64 + 128) ::
        UInt8.ofNat (n % 64 + 128) :: y :=
  cons_lt_of_quotient h (by omega) (fun _ => by omega) fun he => ⟨by rw [he], lastTwo_lt h he⟩

/-! ### Characters and texts -/

/-- The encoding of a smaller character comes first, whatever stands behind. -/
theorem encodeChar_lt {c d : Char} (h : c < d) :
    String.utf8EncodeChar c ++ x < String.utf8EncodeChar d ++ y := by
  have hlt : c.val.toNat < d.val.toNat := h
  have hd : d.val.toNat < 0x110000 := by
    rcases d.valid with h | h
    · exact h.trans (by decide)
    · exact h.2
  generalize hv : c.val.toNat = m at hlt
  generalize hw : d.val.toNat = n at hlt hd
  simp only [String.utf8EncodeChar, hv, hw]
  split_ifs
  -- encodings of one byte, and those of different lengths
  all_goals try exact cons_lt_cons (by omega) (.inl (by omega))
  -- encodings of two, three and four bytes
  · exact cons_lt_of_quotient hlt (by omega) (fun _ => by omega)
      fun he => ⟨by rw [he], last_lt hlt he⟩
  · exact cons_lt_of_quotient hlt (by omega) (fun _ => by omega)
      fun he => ⟨by rw [he], lastTwo_lt hlt he⟩
  · exact cons_lt_of_quotient hlt (by omega) (fun _ => by omega)
      fun he => ⟨by rw [he], lastThree_lt hlt he⟩

/-- The encoding of a text is that of its characters, one after the other. -/
theorem utf8_eq (s : String) : utf8 s = s.toList.flatMap String.utf8EncodeChar := by
  have h := String.toByteArray_ofList (l := s.toList)
  rw [String.ofList_toList] at h
  show s.toByteArray.data.toList = _
  rw [h, List.utf8Encode, List.toList_data_toByteArray]

theorem flatMap_encodeChar_lt {cs ds : List Char} (h : cs < ds) :
    cs.flatMap String.utf8EncodeChar < ds.flatMap String.utf8EncodeChar := by
  induction cs generalizing ds with
  | nil =>
    cases ds with
    | nil => cases h
    | cons d ds =>
      obtain ⟨b, bs, hb⟩ := List.exists_cons_of_length_pos (l := String.utf8EncodeChar d)
        (by rw [String.length_utf8EncodeChar]; exact d.utf8Size_pos)
      rw [List.flatMap_cons, hb]
      exact List.nil_lt_cons _ _
  | cons c cs ih =>
    cases ds with
    | nil => cases h
    | cons d ds =>
      rw [List.flatMap_cons, List.flatMap_cons]
      rcases List.cons_lt_cons_iff.1 h with hlt | ⟨rfl, hlt⟩
      · exact encodeChar_lt hlt
      · exact List.append_left_lt (ih hlt)

/-- A smaller text has the smaller encoding. -/
theorem utf8_lt {s t : String} (h : s < t) : utf8 s < utf8 t := by
  rw [utf8_eq, utf8_eq]
  exact flatMap_encodeChar_lt (String.lt_iff_toList_lt.1 h)

end AuthCore.Text
