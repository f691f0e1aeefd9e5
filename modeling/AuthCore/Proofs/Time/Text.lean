import AuthCore.Proofs.Text.Integer
import AuthCore.Proofs.Time.Calendar
import Mathlib.Data.List.TakeWhile

/-!
# Written times read back

The text of a point in time in a column without a zone reads back as that point, or not at all if
the calendar does not have its day. A leap second has to be the last one of a minute, as all that
are read are (`Timestamp.Regular`). Each part of the text is read off its front, whatever comes
behind it.
-/

namespace AuthCore

open Text

theorem Text.toNat_of_isDigit {c : Char} (h : IsDigit c) : 48 ≤ c.toNat ∧ c.toNat ≤ 57 := by
  unfold IsDigit digit? at h
  split at h
  next hc => exact hc
  next => cases h

theorem Text.not_isBlank_of_isDigit {c : Char} (h : IsDigit c) : isBlank c = false := by
  have := toNat_of_isDigit h
  simp [isBlank, blankRanges]
  omega

namespace Timestamp

/-! ### Numbers and marks -/

theorem skipBlanks_cons {c : Char} (h : isBlank c = false) (cs : List Char) :
    skipBlanks (c :: cs) = c :: cs :=
  List.dropWhile_cons_of_neg (Bool.eq_false_iff.1 h)

/-- A number filled up with zeros begins with a digit. -/
theorem exists_paddedDigits_eq {width : Nat} (hw : 0 < width) {n : Nat} (h : n < 10 ^ width) :
    ∃ c cs, paddedDigits width n = c :: cs ∧ IsDigit c := by
  have hl := length_paddedDigits hw h
  cases hd : paddedDigits width n with
  | nil => rw [hd, List.length_nil] at hl; omega
  | cons c cs => exact ⟨c, cs, rfl, isDigit_of_mem_paddedDigits (hd ▸ List.mem_cons_self)⟩

theorem skipBlanks_paddedDigits {n width : Nat} (hw : 0 < width) (h : n < 10 ^ width)
    (rest : List Char) :
    skipBlanks (paddedDigits width n ++ rest) = paddedDigits width n ++ rest := by
  obtain ⟨c, cs, hd, hc⟩ := exists_paddedDigits_eq hw h
  rw [hd]
  exact skipBlanks_cons (not_isBlank_of_isDigit hc) _

theorem takeWhile_paddedDigits (width n : Nat) :
    (paddedDigits width n).takeWhile (fun c => (digit? c).isSome) = paddedDigits width n :=
  List.takeWhile_eq_self_iff.2 fun _ hc => isDigit_of_mem_paddedDigits hc

theorem digits?_paddedDigits {n width : Nat} (hw : 0 < width) (h : n < 10 ^ width)
    (rest : List Char) : digits? width (paddedDigits width n ++ rest) = some (n, rest) := by
  have hl := length_paddedDigits hw h
  have htake : (paddedDigits width n ++ rest).take width = paddedDigits width n := by
    rw [List.take_append_of_le_length hl.ge, List.take_of_length_le hl.le]
  rw [digits?, htake, takeWhile_paddedDigits, natural?_paddedDigits, Option.map_some,
    List.drop_left]

theorem part?_paddedDigits {n : Nat} (h : n < 100) (rest : List Char) :
    part? (paddedDigits 2 n ++ rest) = some (n, rest) := by
  rw [part?, skipBlanks_paddedDigits (by decide) h, digits?_paddedDigits (by decide) h]

theorem mark?_cons {c : Char} (h : isBlank c = false) (cs : List Char) :
    mark? c (c :: cs) = some cs := by
  rw [mark?, skipBlanks_cons h]
  exact if_pos rfl

/-! ### Days -/

/-- As many digits as there are, in front of a dash. -/
theorem digits?_length (width n : Nat) (rest : List Char) :
    digits? (paddedDigits width n ++ '-' :: rest).length (paddedDigits width n ++ '-' :: rest) =
      some (n, '-' :: rest) := by
  have htake : (paddedDigits width n ++ '-' :: rest).takeWhile (fun c => (digit? c).isSome) =
      paddedDigits width n := by
    rw [List.takeWhile_append_of_pos fun c hc => isDigit_of_mem_paddedDigits hc,
      List.takeWhile_cons_of_neg (by decide), List.append_nil]
  rw [digits?, List.take_length, htake, natural?_paddedDigits, Option.map_some, List.drop_left]

theorem year?_yearDigits (year : Int) (rest : List Char) :
    year? (Day.yearDigits year ++ '-' :: rest) = some (year, '-' :: rest) := by
  unfold Day.yearDigits
  split
  next h =>
    have hlt : year.toNat < 10 ^ 4 := by omega
    obtain ⟨c, cs, hd, hc⟩ := exists_paddedDigits_eq (by decide) hlt
    have hdigits := digits?_paddedDigits (by decide) hlt ('-' :: rest)
    rw [year?, skipBlanks_paddedDigits (by decide) hlt]
    rw [hd] at hdigits ⊢
    -- the first character is a digit, so it is no sign
    split
    next hcs =>
      rw [(List.cons.inj hcs).1] at hc
      exact absurd hc (by decide)
    next hcs =>
      rw [(List.cons.inj hcs).1] at hc
      exact absurd hc (by decide)
    next =>
      rw [hdigits, Option.map_some]
      exact congrArg (fun y => some (y, '-' :: rest)) (Int.toNat_of_nonneg h.1)
  next h =>
    split
    next hneg =>
      have hyear : -(year.natAbs : Int) = year := by omega
      rw [List.cons_append, year?, skipBlanks_cons (by decide)]
      simp only [digits?_length, Option.map_some, hyear]
    next hneg =>
      have hyear : (year.natAbs : Int) = year := by omega
      rw [List.cons_append, year?, skipBlanks_cons (by decide)]
      simp only [digits?_length, Option.map_some, hyear]

/-- The text of a day is read as that day if the calendar has it. -/
theorem day?_chars {d : Day} (hm : d.month ≤ 12) (hd : d.day ≤ 31) (rest : List Char) :
    day? (d.chars ++ rest) = if d.isValid then some (d, rest) else none := by
  have hmonth : d.month < 100 := by omega
  have hday : d.day < 100 := by omega
  have hdash : isBlank '-' = false := by decide
  simp only [day?, Day.chars, List.append_assoc, List.cons_append, year?_yearDigits,
    mark?_cons hdash, part?_paddedDigits hmonth, part?_paddedDigits hday, Option.bind_eq_bind,
    Option.bind_some]

/-! ### Clocks -/

/-- What comes behind a fraction is not taken for a part of it. -/
def EndsFraction (rest : List Char) : Prop := ∀ c ∈ rest.head?, c ≠ '.' ∧ ¬ IsDigit c

theorem fraction?_point {n width : Nat} (hw : 0 < width) (hw' : width ≤ 9) (h : n < 10 ^ width)
    {rest : List Char} (hr : EndsFraction rest) :
    fraction? ('.' :: paddedDigits width n ++ rest) = some (n * 10 ^ (9 - width), rest) := by
  have hl := length_paddedDigits hw h
  have hrest : rest.takeWhile (fun c => (digit? c).isSome) = [] := by
    cases rest with
    | nil => rfl
    | cons c cs => exact List.takeWhile_cons_of_neg (hr c rfl).2
  have htake : (paddedDigits width n ++ rest).takeWhile (fun c => (digit? c).isSome) =
      paddedDigits width n := by
    rw [List.takeWhile_append_of_pos fun c hc => isDigit_of_mem_paddedDigits hc, hrest,
      List.append_nil]
  have hdrop : (paddedDigits width n ++ rest).drop width = rest := List.drop_left' hl
  have hmin : min 9 width = width := by omega
  simp only [List.cons_append, fraction?, htake, List.take_of_length_le (hl.le.trans hw'),
    natural?_paddedDigits, Option.map_some, hl, hmin, hdrop]

theorem fraction?_fractionChars {n : Nat} (h : n < second) {rest : List Char}
    (hr : EndsFraction rest) : fraction? (fractionChars n ++ rest) = some (n, rest) := by
  unfold second at h
  unfold fractionChars
  split
  next hz =>
    rw [List.nil_append, hz]
    cases rest with
    | nil => rfl
    | cons c cs =>
      unfold fraction?
      split
      next hcs => exact absurd (List.cons.inj hcs).1 (hr c rfl).1
      next => rfl
  next =>
    split
    next h6 =>
      rw [fraction?_point (by decide) (by decide) (by omega) hr]
      exact congrArg (fun n => some (n, rest)) (by omega)
    next =>
      split
      next h3 =>
        rw [fraction?_point (by decide) (by decide) (by omega) hr]
        exact congrArg (fun n => some (n, rest)) (by omega)
      next =>
        rw [fraction?_point (by decide) (by decide) h hr]
        exact congrArg (fun n => some (n, rest)) (Nat.mul_one n)

theorem secondOfDay_lt (t : Timestamp) : t.secondOfDay < 86400 := by
  have h := Int.fmod_lt_of_pos t.seconds (b := 86400) (by decide)
  unfold secondOfDay
  omega

/-- A point in time that is no leap second, or the one after the last second of a minute. -/
def Regular (t : Timestamp) : Prop :=
  t.nanos < second ∨ (second ≤ t.nanos ∧ t.nanos < 2 * second ∧ t.secondOfDay % 60 = 59)

/-- The text of a clock is read off its front; second 60 is a leap second. -/
theorem clock?_parts {hour minute sec fraction : Nat} (hh : hour < 24) (hm : minute < 60)
    (hs : sec ≤ 60) (hf : fraction < second) {rest : List Char} (hr : EndsFraction rest) :
    clock? (paddedDigits 2 hour ++ ':' :: paddedDigits 2 minute ++ ':' :: paddedDigits 2 sec ++
        fractionChars fraction ++ rest) =
      some (hour * 3600 + minute * 60 + (if sec = 60 then 59 else sec),
        (if sec = 60 then second else 0) + fraction, rest) := by
  have hhour : hour < 100 := by omega
  have hminute : minute < 100 := by omega
  have hsecond : sec < 100 := by omega
  have hcolon : isBlank ':' = false := by decide
  have hbounds : (decide (hour < 24) && decide (minute < 60) && decide (sec ≤ 60)) = true := by
    simp only [Bool.and_eq_true, decide_eq_true_eq]
    exact ⟨⟨hh, hm⟩, hs⟩
  simp only [clock?, List.append_assoc, List.cons_append, mark?_cons hcolon,
    part?_paddedDigits hhour, part?_paddedDigits hminute, part?_paddedDigits hsecond,
    fraction?_fractionChars hf hr, hbounds, if_true, Option.bind_eq_bind, Option.bind_some]

theorem clock?_clockChars {t : Timestamp} (h : t.Regular) {rest : List Char}
    (hr : EndsFraction rest) :
    clock? (t.clockChars ++ rest) = some (t.secondOfDay, t.nanos, rest) := by
  have hs := t.secondOfDay_lt
  have hsplit : t.secondOfDay / 3600 * 3600 + t.secondOfDay / 60 % 60 * 60 + t.secondOfDay % 60 =
      t.secondOfDay := by omega
  have hsec : t.secondOfDay % 60 + t.nanos / second ≤ 60 := by
    unfold Regular second at *
    omega
  have hhour : t.secondOfDay / 3600 < 24 := by omega
  have hminute : t.secondOfDay / 60 % 60 < 60 := by omega
  refine (clock?_parts hhour hminute hsec (Nat.mod_lt t.nanos (by decide)) hr).trans ?_
  rcases h with h | ⟨h, h', hlast⟩
  · have hsmall : t.nanos / second = 0 := Nat.div_eq_of_lt h
    have hleap : ¬ t.secondOfDay % 60 = 60 := by omega
    rw [hsmall, Nat.add_zero, if_neg hleap, if_neg hleap, Nat.mod_eq_of_lt h, Nat.zero_add, hsplit]
  · have hone : t.nanos / second = 1 := by
      unfold second at *
      omega
    have hrest : second + t.nanos % second = t.nanos := by
      unfold second at *
      omega
    rw [hone, hlast, if_pos rfl, if_pos rfl, hrest, ← hlast, hsplit]

/-! ### Points in time -/

/-- A point in time whose year has four digits and that is no leap second. -/
structure Plain (t : Timestamp) : Prop where
  year_nonneg : 0 ≤ t.day.year
  year_le : t.day.year ≤ 9999
  nanos_lt : t.nanos < second

theorem Plain.regular {t : Timestamp} (h : t.Plain) : t.Regular := .inl h.nanos_lt

theorem Plain.isValid_day {t : Timestamp} (h : t.Plain) : t.day.isValid = true :=
  Day.isValid_ofNumber (le_trans (by decide) h.year_nonneg) (h.year_le.trans (by decide))

theorem day?_dayChars (t : Timestamp) (rest : List Char) :
    day? (t.day.chars ++ rest) = if t.day.isValid then some (t.day, rest) else none := by
  obtain ⟨hm, hd⟩ := Day.month_day_ofNumber_le (t.seconds.fdiv 86400)
  exact day?_chars hm hd rest

theorem seconds_eq (t : Timestamp) : t.day.number * 86400 + (t.secondOfDay : Int) = t.seconds := by
  have hm := Int.fmod_nonneg_of_pos t.seconds (b := 86400) (by decide)
  have hd := Int.fdiv_mul_add_fmod t.seconds 86400
  rw [day, Day.number_ofNumber, secondOfDay, Int.toNat_of_nonneg hm]
  exact hd

/-- A time that was put into a column is read from it, unless the calendar does not have its
day. -/
theorem ofColumnText?_columnText_eq {t : Timestamp} (h : t.Regular) :
    ofColumnText? t.columnText = if t.day.isValid then some t else none := by
  have hclock : clock? t.clockChars = some (t.secondOfDay, t.nanos, []) := by
    have hend : EndsFraction [] := fun c hc => nomatch hc
    have := clock?_clockChars h hend
    rwa [List.append_nil] at this
  rw [ofColumnText?, columnText, String.toList_ofList, day?_dayChars]
  split
  next =>
    simp only [hclock, if_true, Option.bind_eq_bind, Option.bind_some, List.isEmpty_nil,
      t.seconds_eq]
  next => rfl

/-- A time that was put into a column is read from it. -/
theorem ofColumnText?_columnText {t : Timestamp} (h : t.Plain) :
    ofColumnText? t.columnText = some t := by
  rw [ofColumnText?_columnText_eq h.regular, if_pos h.isValid_day]

/-- The text of a point in time in UTC reads back as that point. -/
theorem ofText?_text {t : Timestamp} (h : t.Plain) : ofText? t.text = some t := by
  have hz : EndsFraction ['Z'] := fun c hc => by
    obtain rfl := Option.some.inj hc
    exact ⟨by decide, by decide⟩
  have hclock := clock?_clockChars h.regular hz
  have hblank : skipBlanks ['Z'] = ['Z'] := skipBlanks_cons (by decide) []
  rw [ofText?, text, String.toList_ofList, List.append_assoc, List.cons_append, day?_dayChars,
    if_pos h.isValid_day]
  simp only [decide_true, Bool.true_or, if_true, hclock, hblank, offset?, Option.bind_eq_bind,
    Option.bind_some, List.isEmpty_nil, Int.sub_zero, t.seconds_eq]

/-! ### Times that are read -/

end Timestamp

end AuthCore
