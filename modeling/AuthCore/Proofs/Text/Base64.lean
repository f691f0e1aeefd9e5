import AuthCore.Text.Base64

/-!
# Base 64 reads back

The text of a list of bytes over an alphabet is made of its characters and stands for these bytes.
No other text does (`Alphabet.decode?_eq_some_iff`).
-/

namespace AuthCore.Text

namespace Alphabet

variable {a : Alphabet}

theorem symbol_eq {n : Nat} (h : n < 64) :
    a.symbol n = a.chars.get ⟨n, a.length_chars.symm ▸ h⟩ := by
  have hn : n < a.chars.length := a.length_chars.symm ▸ h
  rw [symbol, List.getD_eq_getElem?_getD, List.getElem?_eq_getElem hn, Option.getD_some,
    List.get_eq_getElem]

theorem symbol_mem {n : Nat} (h : n < 64) : a.symbol n ∈ a.chars :=
  symbol_eq h ▸ List.get_mem _ _

theorem value?_symbol {n : Nat} (h : n < 64) : a.value? (a.symbol n) = some n := by
  have hn : n < a.chars.length := a.length_chars.symm ▸ h
  rw [value?, symbol_eq h, List.get_eq_getElem, List.idxOf?_eq_some_iff]
  exact ⟨hn, rfl, fun j hj he => List.pairwise_iff_getElem.1 a.nodup_chars j n _ hn hj he⟩

theorem mem_encode {c : Char} {bs : List UInt8} (h : c ∈ a.encode bs) : c ∈ a.chars := by
  induction bs using encode.induct with
  | case1 x y z rest ih =>
    have hx := x.toNat_lt
    have hy := y.toNat_lt
    have hz := z.toNat_lt
    simp only [encode, List.mem_cons] at h
    rcases h with rfl | rfl | rfl | rfl | h
    · exact symbol_mem (by omega)
    · exact symbol_mem (by omega)
    · exact symbol_mem (by omega)
    · exact symbol_mem (by omega)
    · exact ih h
  | case2 x y =>
    have hx := x.toNat_lt
    have hy := y.toNat_lt
    simp only [encode, List.mem_cons, List.not_mem_nil, or_false] at h
    rcases h with rfl | rfl | rfl
    · exact symbol_mem (by omega)
    · exact symbol_mem (by omega)
    · exact symbol_mem (by omega)
  | case3 x =>
    have hx := x.toNat_lt
    simp only [encode, List.mem_cons, List.not_mem_nil, or_false] at h
    rcases h with rfl | rfl
    · exact symbol_mem (by omega)
    · exact symbol_mem (by omega)
  | case4 => exact absurd h (by simp [encode])

theorem ofNat_eq {x : UInt8} {n : Nat} (h : n = x.toNat) : UInt8.ofNat n = x := by
  rw [h, UInt8.ofNat_toNat]

/-- Every list of bytes reads its own text. -/
theorem decode?_encode (bs : List UInt8) : a.decode? (a.encode bs) = some bs := by
  induction bs using encode.induct with
  | case1 x y z rest ih =>
    have hx := x.toNat_lt
    have hy := y.toNat_lt
    have hz := z.toNat_lt
    simp only [encode, decode?, ih]
    rw [value?_symbol (by omega), value?_symbol (by omega), value?_symbol (by omega),
      value?_symbol (by omega)]
    simp only [Option.bind_eq_bind, Option.bind_some, Option.some.injEq, List.cons.injEq, and_true]
    exact ⟨ofNat_eq (by omega), ofNat_eq (by omega), ofNat_eq (by omega)⟩
  | case2 x y =>
    have hx := x.toNat_lt
    have hy := y.toNat_lt
    simp only [encode, decode?]
    rw [value?_symbol (by omega), value?_symbol (by omega), value?_symbol (by omega)]
    simp only [Option.bind_eq_bind, Option.bind_some]
    rw [if_pos (by omega), ofNat_eq (x := x) (by omega), ofNat_eq (x := y) (by omega)]
  | case3 x =>
    have hx := x.toNat_lt
    simp only [encode, decode?]
    rw [value?_symbol (by omega), value?_symbol (by omega)]
    simp only [Option.bind_eq_bind, Option.bind_some]
    rw [if_pos (by omega), ofNat_eq (x := x) (by omega)]
  | case4 => rfl

theorem mem_of_value? {c : Char} {n : Nat} (h : a.value? c = some n) : c ∈ a.chars := by
  obtain ⟨hn, hc, -⟩ := List.idxOf?_eq_some_iff.1 h
  exact hc ▸ List.getElem_mem hn

/-- A text that stands for bytes is made of the characters of the alphabet. -/
theorem mem_of_decode? {cs : List Char} {bs : List UInt8} (h : a.decode? cs = some bs) :
    ∀ c ∈ cs, c ∈ a.chars := by
  induction cs using decode?.induct generalizing bs with
  | case1 c d e f rest ih =>
    simp only [decode?, Option.bind_eq_bind, Option.bind_eq_some_iff] at h
    obtain ⟨_, hc, _, hd, _, he, _, hf, _, hrest, -⟩ := h
    simp only [List.forall_mem_cons]
    exact ⟨mem_of_value? hc, mem_of_value? hd, mem_of_value? he, mem_of_value? hf, ih hrest⟩
  | case2 c d e =>
    simp only [decode?, Option.bind_eq_bind, Option.bind_eq_some_iff] at h
    obtain ⟨_, hc, _, hd, _, he, -⟩ := h
    simp only [List.forall_mem_cons]
    exact ⟨mem_of_value? hc, mem_of_value? hd, mem_of_value? he, nofun⟩
  | case3 c d =>
    simp only [decode?, Option.bind_eq_bind, Option.bind_eq_some_iff] at h
    obtain ⟨_, hc, _, hd, -⟩ := h
    simp only [List.forall_mem_cons]
    exact ⟨mem_of_value? hc, mem_of_value? hd, nofun⟩
  | case4 c => cases h
  | case5 => exact nofun

theorem symbol_of_value? {c : Char} {n : Nat} (h : a.value? c = some n) :
    n < 64 ∧ a.symbol n = c := by
  obtain ⟨hn, hc, -⟩ := List.idxOf?_eq_some_iff.1 h
  have hlt : n < 64 := a.length_chars ▸ hn
  rw [symbol_eq hlt, List.get_eq_getElem]
  exact ⟨hlt, hc⟩

/-- A text that stands for bytes is the text of these bytes: the bits left over are zero. -/
theorem eq_encode_of_decode? {cs : List Char} {bs : List UInt8} (h : a.decode? cs = some bs) :
    cs = a.encode bs := by
  induction cs using decode?.induct generalizing bs with
  | case1 c d e f rest ih =>
    simp only [decode?, Option.bind_eq_bind, Option.bind_eq_some_iff, Option.some.injEq] at h
    obtain ⟨p, hc, q, hd, r, he, s, hf, bytes, hrest, rfl⟩ := h
    obtain ⟨hp, rfl⟩ := symbol_of_value? hc
    obtain ⟨hq, rfl⟩ := symbol_of_value? hd
    obtain ⟨hr, rfl⟩ := symbol_of_value? he
    obtain ⟨hs, rfl⟩ := symbol_of_value? hf
    simp only [encode, UInt8.toNat_ofNat', ih hrest, List.cons.injEq, and_true]
    refine ⟨congrArg _ ?_, congrArg _ ?_, congrArg _ ?_, congrArg _ ?_⟩ <;> omega
  | case2 c d e =>
    simp only [decode?, Option.bind_eq_bind, Option.bind_eq_some_iff,
      Option.ite_none_right_eq_some, Option.some.injEq] at h
    obtain ⟨p, hc, q, hd, r, he, hzero, rfl⟩ := h
    obtain ⟨hp, rfl⟩ := symbol_of_value? hc
    obtain ⟨hq, rfl⟩ := symbol_of_value? hd
    obtain ⟨hr, rfl⟩ := symbol_of_value? he
    simp only [encode, UInt8.toNat_ofNat', List.cons.injEq, and_true]
    refine ⟨congrArg _ ?_, congrArg _ ?_, congrArg _ ?_⟩ <;> omega
  | case3 c d =>
    simp only [decode?, Option.bind_eq_bind, Option.bind_eq_some_iff,
      Option.ite_none_right_eq_some, Option.some.injEq] at h
    obtain ⟨p, hc, q, hd, hzero, rfl⟩ := h
    obtain ⟨hp, rfl⟩ := symbol_of_value? hc
    obtain ⟨hq, rfl⟩ := symbol_of_value? hd
    simp only [encode, UInt8.toNat_ofNat', List.cons.injEq, and_true]
    refine ⟨congrArg _ ?_, congrArg _ ?_⟩ <;> omega
  | case4 c => cases h
  | case5 =>
    cases h
    rfl

/-- Every list of bytes has exactly one text. -/
theorem decode?_eq_some_iff {cs : List Char} {bs : List UInt8} :
    a.decode? cs = some bs ↔ cs = a.encode bs :=
  ⟨eq_encode_of_decode?, fun h => h ▸ decode?_encode bs⟩

/-- Three bytes take four characters. -/
theorem le_length_encode (bs : List UInt8) : 4 * bs.length ≤ 3 * (a.encode bs).length := by
  induction bs using encode.induct with
  | case1 x y z rest ih =>
    simp only [encode, List.length_cons]
    omega
  | case2 x y => exact Nat.le_succ 8
  | case3 x =>
    simp only [encode, List.length_cons, List.length_nil]
    omega
  | case4 => exact Nat.le_refl 0

end Alphabet

/-- The address-safe alphabet has no point, so points can stand between texts in it. -/
theorem point_notMem_encode (bs : List UInt8) : '.' ∉ Alphabet.url.encode bs := fun h =>
  absurd (Alphabet.mem_encode h) (by decide)

/-- Every text reads its own bytes. -/
theorem ofUtf8?_utf8 (s : String) : ofUtf8? (utf8 s) = some s := by
  have h : (⟨(utf8 s).toArray⟩ : ByteArray) = s.toByteArray := by
    rw [utf8, Array.toArray_toList]
    rfl
  rw [ofUtf8?, h, String.fromUTF8?, dif_pos s.isValidUTF8]
  rfl

theorem utf8_injective {s t : String} (h : utf8 s = utf8 t) : s = t := by
  have hs := congrArg ofUtf8? h
  rw [ofUtf8?_utf8, ofUtf8?_utf8] at hs
  exact Option.some.inj hs

/-- Bytes that read as a text are its bytes. -/
theorem eq_utf8_of_ofUtf8? {bytes : List UInt8} {s : String} (h : ofUtf8? bytes = some s) :
    bytes = utf8 s := by
  rw [ofUtf8?, String.fromUTF8?, Option.dite_none_right_eq_some] at h
  obtain ⟨_, hs⟩ := h
  obtain rfl := Option.some.inj hs
  rfl

end AuthCore.Text
