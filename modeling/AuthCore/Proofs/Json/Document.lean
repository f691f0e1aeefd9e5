import AuthCore.Proofs.Json.Text
import AuthCore.Proofs.Text.Integer
import Mathlib.Data.List.TakeWhile

/-!
# Printed documents read back

The compact text of a value reads back as the value, as long as its numbers are integers of 64 bits
(`Json.IsPlain`). What is read stops where the text of a value ends, since nothing that can stand
behind a value goes on with a number (`Json.Stops`). The fuel of the reader is counted against the
length of the text.
-/

namespace AuthCore.Json

/-! ### Numbers -/

/-- A rest of a text that does not go on with a number. -/
def Stops : List Char → Prop
  | [] => True
  | c :: _ => ¬ Text.IsDigit c ∧ c ≠ '.' ∧ c ≠ 'e' ∧ c ≠ 'E'

theorem spanDigits_append {ds rest : List Char} (hd : ∀ c ∈ ds, Text.IsDigit c)
    (hr : Stops rest) : spanDigits (ds ++ rest) = (ds, rest) := by
  have hrest : rest.takeWhile (fun c => (Text.digit? c).isSome) = [] ∧
      rest.dropWhile (fun c => (Text.digit? c).isSome) = rest := by
    cases rest with
    | nil => exact ⟨rfl, rfl⟩
    | cons c cs =>
      have hc : (Text.digit? c).isSome = false := Bool.eq_false_iff.2 hr.1
      rw [List.takeWhile_cons, List.dropWhile_cons, hc]
      exact ⟨rfl, rfl⟩
  rw [spanDigits, List.takeWhile_append_of_pos hd, List.dropWhile_append_of_pos hd, hrest.1,
    hrest.2, List.append_nil]

theorem fraction?_of_stops {rest : List Char} (hr : Stops rest) :
    fraction? rest = some ([], rest) := by
  unfold fraction?
  split
  next => exact absurd rfl hr.2.1
  next => rfl

theorem exponent?_of_stops {rest : List Char} (hr : Stops rest) :
    exponent? rest = some (none, rest) := by
  cases rest with
  | nil => rfl
  | cons c cs =>
    have hmark : ¬ (c = 'e' || c = 'E') = true := by simp [hr.2.2.1, hr.2.2.2]
    simp only [exponent?, hmark]
    rfl

/-- Only the digits of zero begin with a zero. -/
theorem eq_zero_of_head? (n : Nat) (h : (Text.naturalDigits n).head? = some '0') : n = 0 := by
  induction n using Text.naturalDigits.induct with
  | case1 n hn =>
    have hzero : ∀ d < 10, Char.ofNat ('0'.toNat + d) = '0' → d = 0 := by decide
    rw [Text.naturalDigits, if_pos hn] at h
    exact hzero n hn (Option.some.inj h)
  | case2 n hn ih =>
    rw [Text.naturalDigits, if_neg hn, List.head?_append] at h
    rcases Option.or_eq_some_iff.1 h with hhead | ⟨hnone, -⟩
    · have := ih hhead
      omega
    · exact absurd (List.head?_eq_none_iff.1 hnone) (Text.naturalDigits_ne_nil _)

/-- The number behind a sign, which may be missing. -/
def magnitude? (negative : Bool) (cs : List Char) : Option (Json × List Char) :=
  let (whole, cs) := spanDigits cs
  if whole.isEmpty || (whole.head? = some '0' && 1 < whole.length) then none
  else do
    let (frac, cs) ← fraction? cs
    let (exp, cs) ← exponent? cs
    some (numberOf negative whole frac exp, cs)

theorem number?_minus (cs : List Char) : number? ('-' :: cs) = magnitude? true cs := rfl

theorem number?_of_isDigit {c : Char} (hc : Text.IsDigit c) (cs : List Char) :
    number? (c :: cs) = magnitude? false (c :: cs) := by
  have hm : c ≠ '-' := by
    rintro rfl
    exact absurd hc (by decide)
  unfold number?
  split
  next heq =>
    split at heq
    next hcs => exact absurd (List.cons.inj hcs).1 hm
    next =>
      cases heq
      rfl

theorem magnitude?_naturalDigits (negative : Bool) (n : Nat) {rest : List Char} (hr : Stops rest) :
    magnitude? negative (Text.naturalDigits n ++ rest) =
      some (numberOf negative (Text.naturalDigits n) [] none, rest) := by
  have hne : (Text.naturalDigits n).isEmpty = false :=
    List.isEmpty_eq_false_iff.2 (Text.naturalDigits_ne_nil n)
  have hwhole :
      ¬ ((Text.naturalDigits n).head? = some '0' ∧ 1 < (Text.naturalDigits n).length) := by
    rintro ⟨hhead, hlength⟩
    obtain rfl := eq_zero_of_head? n hhead
    simp [Text.naturalDigits] at hlength
  simp only [magnitude?, spanDigits_append (fun c => Text.isDigit_of_mem_naturalDigits n) hr]
  rw [if_neg (by simpa [hne] using hwhole), fraction?_of_stops hr, Option.bind_eq_bind,
    Option.bind_some, exponent?_of_stops hr]
  rfl

theorem digitsValue_naturalDigits (n : Nat) : digitsValue (Text.naturalDigits n) = n := by
  rw [digitsValue, Text.foldDigits_naturalDigits, Option.getD_some]

theorem number?_integerDigits {i : Int} (hlow : -(2 ^ 63) ≤ i) (hhigh : i < 2 ^ 64)
    {rest : List Char} (hr : Stops rest) :
    number? (Text.integerDigits i ++ rest) = some (.int i, rest) := by
  cases i with
  | ofNat n =>
    have hn : n < 2 ^ 64 := Int.ofNat_lt.1 hhigh
    have hnumber : number? (Text.naturalDigits n ++ rest) =
        magnitude? false (Text.naturalDigits n ++ rest) := by
      cases hd : Text.naturalDigits n with
      | nil => exact absurd hd (Text.naturalDigits_ne_nil n)
      | cons c ds =>
        exact number?_of_isDigit (Text.isDigit_of_mem_naturalDigits n (hd ▸ List.mem_cons_self)) _
    have hint : numberOf false (Text.naturalDigits n) [] none = .int n := by
      simp only [numberOf, List.append_nil, digitsValue_naturalDigits]
      exact if_pos (by simpa using hn)
    rw [Text.integerDigits, hnumber, magnitude?_naturalDigits false n hr, hint]
    rfl
  | negSucc n =>
    have hn : n + 1 ≤ 2 ^ 63 := by omega
    have hint : numberOf true (Text.naturalDigits (n + 1)) [] none = .int (.negSucc n) := by
      simp only [numberOf, List.append_nil, digitsValue_naturalDigits]
      exact if_pos (by simpa using hn)
    rw [Text.integerDigits, List.cons_append, number?_minus,
      magnitude?_naturalDigits true (n + 1) hr, hint]

/-! ### Values -/

mutual

/-- A value whose numbers are integers of 64 bits. -/
def IsPlain : Json → Prop
  | .int i => -(2 ^ 63) ≤ i ∧ i < 2 ^ 64
  | .real _ => False
  | .array items => ArePlain items
  | .object ms => MembersPlain ms
  | _ => True

/-- Every item is plain. -/
def ArePlain : List Json → Prop
  | [] => True
  | j :: js => IsPlain j ∧ ArePlain js

/-- Every member is plain. -/
def MembersPlain : List (String × Json) → Prop
  | [] => True
  | (_, j) :: ms => IsPlain j ∧ MembersPlain ms

end

theorem arePlain_map {α : Type} {f : α → Json} {items : List α} (h : ∀ a ∈ items, (f a).IsPlain) :
    ArePlain (items.map f) := by
  induction items with
  | nil => trivial
  | cons a items ih =>
    obtain ⟨ha, hitems⟩ := List.forall_mem_cons.1 h
    exact ⟨ha, ih hitems⟩

@[simp] theorem isPlain_strings (texts : List String) : (strings texts).IsPlain :=
  arePlain_map fun _ _ => trivial

@[simp] theorem isPlain_stringOrNull (o : Option String) : (stringOrNull o).IsPlain := by
  cases o <;> trivial

theorem skip_cons {c : Char} (h : isSpace c = false) (cs : List Char) : skip (c :: cs) = c :: cs :=
  List.dropWhile_cons_of_neg (Bool.eq_false_iff.1 h)

theorem isSpace_quote : isSpace '"' = false := rfl

theorem isSpace_colon : isSpace ':' = false := rfl

/-- A character that begins a number begins nothing else. -/
theorem ne_of_number {c d : Char} (hc : c = '-' ∨ Text.IsDigit c) (hm : d ≠ '-')
    (hd : ¬ Text.IsDigit d) : c ≠ d := by
  rintro rfl
  exact hc.elim hm hd

theorem isSpace_of_number {c : Char} (hc : c = '-' ∨ Text.IsDigit c) : isSpace c = false := by
  have h₁ : c ≠ ' ' := ne_of_number hc (by decide) (by decide)
  have h₂ : c ≠ '\n' := ne_of_number hc (by decide) (by decide)
  have h₃ : c ≠ '\r' := ne_of_number hc (by decide) (by decide)
  have h₄ : c ≠ '\t' := ne_of_number hc (by decide) (by decide)
  simp [isSpace, h₁, h₂, h₃, h₄]

theorem value?_number {c : Char} (hc : c = '-' ∨ Text.IsDigit c) (fuel : Nat) (cs : List Char) :
    value? (fuel + 1) (c :: cs) = number? (c :: cs) := by
  rw [value?, skip_cons (isSpace_of_number hc)]
  split
  next heq => cases heq
  next heq => exact absurd (List.cons.inj heq).1 (ne_of_number hc (by decide) (by decide))
  next heq => exact absurd (List.cons.inj heq).1 (ne_of_number hc (by decide) (by decide))
  next heq => exact absurd (List.cons.inj heq).1 (ne_of_number hc (by decide) (by decide))
  next heq => exact absurd (List.cons.inj heq).1 (ne_of_number hc (by decide) (by decide))
  next heq => exact absurd (List.cons.inj heq).1 (ne_of_number hc (by decide) (by decide))
  next heq => exact absurd (List.cons.inj heq).1 (ne_of_number hc (by decide) (by decide))
  next => rfl

theorem value?_quote (fuel : Nat) (s : String) (rest : List Char) :
    value? (fuel + 1) (quote s ++ rest) = some (.string s, rest) := by
  rw [quote_append]
  show (quoted? _ (s.toList.flatMap escape ++ '"' :: rest)).map _ = _
  simp only [quoted?_of_quote, Option.map_some, String.ofList_toList]

/-- How the text of a value begins. -/
theorem chars_cons (j : Json) (hj : j.IsPlain) :
    ∃ c cs, chars j = c :: cs ∧ isSpace c = false ∧ c ≠ ']' := by
  cases j with
  | null => exact ⟨_, _, rfl, by decide, by decide⟩
  | bool b => cases b <;> exact ⟨_, _, rfl, by decide, by decide⟩
  | int i =>
    cases hd : Text.integerDigits i with
    | nil => exact absurd hd (Text.integerDigits_ne_nil i)
    | cons c cs =>
      have hc := Text.mem_integerDigits (i := i) (hd ▸ List.mem_cons_self : c ∈ _)
      exact ⟨c, cs, hd, isSpace_of_number hc, ne_of_number hc (by decide) (by decide)⟩
  | real d => exact hj.elim
  | string s => exact ⟨_, _, rfl, by decide, by decide⟩
  | array items => exact ⟨_, _, rfl, by decide, by decide⟩
  | object ms => exact ⟨_, _, rfl, by decide, by decide⟩

theorem itemChars_cons (j : Json) (js : List Json) (hj : j.IsPlain) :
    ∃ c cs, itemChars (j :: js) = c :: cs ∧ isSpace c = false ∧ c ≠ ']' := by
  obtain ⟨c, cs, hcs, hc⟩ := chars_cons j hj
  cases js with
  | nil => exact ⟨c, cs, hcs, hc⟩
  | cons i is => exact ⟨c, cs ++ ',' :: itemChars (i :: is), congrArg (· ++ _) hcs, hc⟩

theorem memberChars_cons (k : String) (j : Json) (ms : List (String × Json)) :
    ∃ cs, memberChars ((k, j) :: ms) = '"' :: cs := by
  cases ms with
  | nil => exact ⟨_, rfl⟩
  | cons m ms => exact ⟨_, rfl⟩

theorem value?_array {c : Char} (hspace : isSpace c = false) (hc : c ≠ ']') (fuel : Nat)
    (cs : List Char) : value? (fuel + 1) ('[' :: c :: cs) =
      (items? fuel (c :: cs)).map fun r => (.array r.1, r.2) := by
  have hopen : skip ('[' :: c :: cs) = '[' :: c :: cs := skip_cons (by decide) _
  simp only [value?, hopen, skip_cons hspace]
  split
  next heq => exact absurd (List.cons.inj heq).1 hc
  next => rfl

theorem items?_last {fuel : Nat} {cs rest : List Char} {j : Json}
    (h : value? fuel cs = some (j, ']' :: rest)) : items? (fuel + 1) cs = some ([j], rest) := by
  rw [items?, h]
  rfl

theorem items?_cons {fuel : Nat} {cs rest : List Char} {j : Json}
    (h : value? fuel cs = some (j, ',' :: rest)) :
    items? (fuel + 1) cs = (items? fuel rest).map fun r => (j :: r.1, r.2) := by
  rw [items?, h]
  rfl

theorem members?_last {fuel : Nat} (k : String) {cs rest : List Char} {j : Json}
    (h : value? fuel cs = some (j, '\x7d' :: rest)) :
    members? (fuel + 1) (quote k ++ ':' :: cs) = some ([(k, j)], rest) := by
  have hclose : skip ('\x7d' :: rest) = '\x7d' :: rest := skip_cons (by decide) _
  rw [quote_append]
  simp only [members?, skip_cons isSpace_quote, quoted?_of_quote, skip_cons isSpace_colon, h,
    hclose, String.ofList_toList]

theorem members?_cons {fuel : Nat} (k : String) {cs rest : List Char} {j : Json}
    (h : value? fuel cs = some (j, ',' :: rest)) :
    members? (fuel + 1) (quote k ++ ':' :: cs) =
      (members? fuel rest).map fun r => ((k, j) :: r.1, r.2) := by
  have hcomma : skip (',' :: rest) = ',' :: rest := skip_cons (by decide) _
  rw [quote_append]
  simp only [members?, skip_cons isSpace_quote, quoted?_of_quote, skip_cons isSpace_colon, h,
    hcomma, String.ofList_toList]

/-! ### Documents -/

/-- Neither a comma nor a closing bracket or brace goes on with a number. -/
theorem stops_cons {c : Char} (hc : c = ',' ∨ c = ']' ∨ c = '\x7d') (rest : List Char) :
    Stops (c :: rest) := by
  rcases hc with rfl | rfl | rfl <;> refine ⟨by decide, by decide, by decide, by decide⟩

theorem itemChars_cons_cons (j i : Json) (is : List Json) :
    itemChars (j :: i :: is) = chars j ++ ',' :: itemChars (i :: is) := rfl

theorem memberChars_cons_cons (k : String) (j : Json) (m : String × Json)
    (ms : List (String × Json)) :
    memberChars ((k, j) :: m :: ms) = quote k ++ ':' :: (chars j ++ ',' :: memberChars (m :: ms)) :=
  List.append_assoc _ _ _

/-- What is read with some fuel from a text that the fuel suffices for: values with a rest behind
them, items up to the closing bracket, members up to the closing brace. -/
structure ReadsBack (fuel : Nat) : Prop where
  value : ∀ (j : Json) (rest : List Char), j.IsPlain → Stops rest → (chars j).length < fuel →
    value? fuel (chars j ++ rest) = some (j, rest)
  items : ∀ (j : Json) (js : List Json) (rest : List Char), ArePlain (j :: js) →
    (itemChars (j :: js)).length + 1 < fuel →
      items? fuel (itemChars (j :: js) ++ ']' :: rest) = some (j :: js, rest)
  members : ∀ (k : String) (j : Json) (ms : List (String × Json)) (rest : List Char),
    MembersPlain ((k, j) :: ms) → (memberChars ((k, j) :: ms)).length + 1 < fuel →
      members? fuel (memberChars ((k, j) :: ms) ++ '\x7d' :: rest) = some ((k, j) :: ms, rest)

namespace ReadsBack

variable {fuel : Nat}

theorem value_succ (h : ReadsBack fuel) (j : Json) (rest : List Char) (hj : j.IsPlain)
    (hr : Stops rest) (hfuel : (chars j).length < fuel + 1) :
    value? (fuel + 1) (chars j ++ rest) = some (j, rest) := by
  match j with
  | .null => rfl
  | .bool true => rfl
  | .bool false => rfl
  | .int i =>
    obtain ⟨c, cs, hcs⟩ := List.exists_cons_of_ne_nil (Text.integerDigits_ne_nil i)
    have hc := Text.mem_integerDigits (i := i) (hcs ▸ List.mem_cons_self : c ∈ _)
    rw [chars, ← number?_integerDigits hj.1 hj.2 hr, hcs]
    exact value?_number hc fuel _
  | .real d => exact hj.elim
  | .string s => exact value?_quote fuel s rest
  | .array [] => rfl
  | .array (i :: is) =>
    have hlength : (chars (.array (i :: is))).length = (itemChars (i :: is)).length + 1 + 1 := by
      rw [chars, List.length_cons, List.length_append, List.length_singleton]
    have hchars : chars (.array (i :: is)) ++ rest =
        '[' :: (itemChars (i :: is) ++ ']' :: rest) := by
      rw [chars, List.cons_append, List.append_assoc]
      rfl
    have hitems := h.items i is rest hj (by omega)
    obtain ⟨c, cs, hcs, hspace, hc⟩ := itemChars_cons i is hj.1
    rw [hchars]
    rw [hcs, List.cons_append] at hitems ⊢
    rw [value?_array hspace hc, hitems]
    rfl
  | .object [] => rfl
  | .object ((k, i) :: ms) =>
    have hlength : (chars (.object ((k, i) :: ms))).length =
        (memberChars ((k, i) :: ms)).length + 1 + 1 := by
      rw [chars, List.length_cons, List.length_append, List.length_singleton]
    have hchars : chars (.object ((k, i) :: ms)) ++ rest =
        '\x7b' :: (memberChars ((k, i) :: ms) ++ '\x7d' :: rest) := by
      rw [chars, List.cons_append, List.append_assoc]
      rfl
    have hmembers := h.members k i ms rest hj (by omega)
    obtain ⟨cs, hcs⟩ := memberChars_cons k i ms
    rw [hchars]
    rw [hcs, List.cons_append] at hmembers ⊢
    show (members? fuel ('"' :: (cs ++ '\x7d' :: rest))).map _ = _
    rw [hmembers]
    rfl

theorem items_succ (h : ReadsBack fuel) (j : Json) (js : List Json) (rest : List Char)
    (hj : ArePlain (j :: js)) (hfuel : (itemChars (j :: js)).length + 1 < fuel + 1) :
    items? (fuel + 1) (itemChars (j :: js) ++ ']' :: rest) = some (j :: js, rest) := by
  cases js with
  | nil =>
    have hlength : (itemChars [j]).length = (chars j).length := rfl
    exact items?_last (h.value j _ hj.1 (stops_cons (.inr (.inl rfl)) rest) (by omega))
  | cons i is =>
    have hlength : (itemChars (j :: i :: is)).length =
        (chars j).length + ((itemChars (i :: is)).length + 1) := by
      rw [itemChars_cons_cons, List.length_append, List.length_cons]
    have hchars : itemChars (j :: i :: is) ++ ']' :: rest =
        chars j ++ ',' :: (itemChars (i :: is) ++ ']' :: rest) := by
      rw [itemChars_cons_cons, List.append_assoc, List.cons_append]
    have hfirst := h.value j _ hj.1
      (stops_cons (.inl rfl) (itemChars (i :: is) ++ ']' :: rest)) (by omega)
    rw [hchars, items?_cons hfirst, h.items i is rest hj.2 (by omega)]
    rfl

theorem members_succ (h : ReadsBack fuel) (k : String) (j : Json) (ms : List (String × Json))
    (rest : List Char) (hj : MembersPlain ((k, j) :: ms))
    (hfuel : (memberChars ((k, j) :: ms)).length + 1 < fuel + 1) :
    members? (fuel + 1) (memberChars ((k, j) :: ms) ++ '\x7d' :: rest) =
      some ((k, j) :: ms, rest) := by
  cases ms with
  | nil =>
    have hlength : (memberChars [(k, j)]).length = (quote k).length + ((chars j).length + 1) := by
      rw [memberChars, List.length_append, List.length_cons]
    have hchars : memberChars [(k, j)] ++ '\x7d' :: rest =
        quote k ++ ':' :: (chars j ++ '\x7d' :: rest) := by
      rw [memberChars, List.append_assoc, List.cons_append]
    rw [hchars]
    exact members?_last k (h.value j _ hj.1 (stops_cons (.inr (.inr rfl)) rest) (by omega))
  | cons m ms =>
    obtain ⟨k', i⟩ := m
    have hlength : (memberChars ((k, j) :: (k', i) :: ms)).length =
        (quote k).length + ((chars j).length + ((memberChars ((k', i) :: ms)).length + 1) + 1) := by
      rw [memberChars_cons_cons, List.length_append, List.length_cons, List.length_append,
        List.length_cons]
    have hchars : memberChars ((k, j) :: (k', i) :: ms) ++ '\x7d' :: rest =
        quote k ++ ':' :: (chars j ++ ',' :: (memberChars ((k', i) :: ms) ++ '\x7d' :: rest)) := by
      rw [memberChars_cons_cons, List.append_assoc, List.cons_append, List.append_assoc,
        List.cons_append]
    have hfirst := h.value j _ hj.1
      (stops_cons (.inl rfl) (memberChars ((k', i) :: ms) ++ '\x7d' :: rest)) (by omega)
    rw [hchars, members?_cons k hfirst, h.members k' i ms rest hj.2 (by omega)]
    rfl

end ReadsBack

/-- With enough fuel everything reads back. The induction is on the fuel, since each of the three
readers calls the others with one less. -/
theorem readsBack (fuel : Nat) : ReadsBack fuel := by
  induction fuel with
  | zero => exact ⟨nofun, nofun, nofun⟩
  | succ fuel ih => exact ⟨ih.value_succ, ih.items_succ, ih.members_succ⟩

/-- The text of a plain document reads back. -/
theorem ofText?_text (j : Json) (hj : j.IsPlain) : ofText? j.text = some j := by
  have hvalue := (readsBack ((chars j).length + 1)).value j [] hj trivial (Nat.lt_succ_self _)
  rw [List.append_nil] at hvalue
  rw [ofText?, text, String.toList_ofList, ofChars?, hvalue]
  rfl

theorem ofText?_string (s : String) : ofText? (Json.string s).text = some (.string s) :=
  ofText?_text (.string s) trivial

end AuthCore.Json
