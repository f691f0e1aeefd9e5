import AuthCore.Proofs.Otp.Codes
import AuthCore.Proofs.Text.Lowercase
import Mathlib.Logic.Relation

/-!
# The grammar of usernames

Which texts `Username.parse` reads, and as what. An address is read in lower case and a number
without its separators, so the value of a username is itself a text of the grammar that reads as the
same username. The spellings of one number come from each other by single changes (`Respells`):
a separator, a blank at an end, or the two ways to write the international prefix.
-/

namespace AuthCore

namespace Text

variable {cs : List Char}

/-- Trimming drops only blanks. -/
theorem filter_trimList {q : Char → Bool} (h : ∀ c, isBlank c = true → q c = false) :
    (trimList cs).filter q = cs.filter q := by
  have hdrop (ds : List Char) : (ds.dropWhile isBlank).filter q = ds.filter q := by
    have hblank : (ds.takeWhile isBlank).filter q = [] := by
      refine List.filter_eq_nil_iff.2 fun c hc => ?_
      rw [h c (List.mem_takeWhile_imp hc)]
      exact Bool.false_ne_true
    calc (ds.dropWhile isBlank).filter q
        = (ds.takeWhile isBlank).filter q ++ (ds.dropWhile isBlank).filter q := by
          rw [hblank, List.nil_append]
      _ = ds.filter q := by rw [← List.filter_append, List.takeWhile_append_dropWhile]
  rw [trimList, List.filter_reverse, hdrop, List.filter_reverse, List.reverse_reverse, hdrop]

theorem trim_of_noBlank {s : String} (h : ∀ c ∈ s.toList, isBlank c = false) : trim s = s := by
  have hdrop (ds : List Char) (hd : ∀ c ∈ ds, isBlank c = false) : ds.dropWhile isBlank = ds := by
    cases ds with
    | nil => rfl
    | cons d ds =>
      rw [List.dropWhile_cons_of_neg]
      rw [hd d List.mem_cons_self]
      exact Bool.false_ne_true
  rw [trim, trimList, hdrop _ h, hdrop _ fun c hc => h c (List.mem_reverse.1 hc),
    List.reverse_reverse, String.ofList_toList]

end Text

namespace Username

variable {cs mailbox domain : List Char} {raw : String}

/-! ### Addresses -/

/-- The shape of an e-mail address: no blanks, a single `@` with something before it, and a point
inside what comes after it. -/
structure Address (cs : List Char) : Prop where
  /-- There are no blanks. -/
  noBlank : ∀ c ∈ cs, Text.isBlank c = false
  /-- There is one `@`. -/
  oneAt : cs.count '@' = 1
  /-- A mailbox, and a domain with a point that is neither its first nor its last character. -/
  parts : ∃ mailbox left right : List Char, cs = mailbox ++ '@' :: (left ++ '.' :: right) ∧
    mailbox ≠ [] ∧ left ≠ [] ∧ right ≠ []

theorem isAddress_append (h : '@' ∉ mailbox) :
    isAddress (mailbox ++ '@' :: domain) =
      (!mailbox.isEmpty && mailbox.all isAddressChar && domain.all isAddressChar
        && (domain.drop 1).dropLast.contains '.') := by
  have hne : ∀ c ∈ mailbox, (c != '@') = true := fun c hc => bne_iff_ne.2 fun he => h (he ▸ hc)
  rw [isAddress, List.takeWhile_append_of_pos hne, List.dropWhile_append_of_pos hne,
    List.takeWhile_cons_of_neg (by decide), List.append_nil, List.dropWhile_cons_of_neg (by decide)]

theorem mem_inner_iff {a : Char} :
    a ∈ (domain.drop 1).dropLast ↔
      ∃ left right : List Char, domain = left ++ a :: right ∧ left ≠ [] ∧ right ≠ [] := by
  constructor
  · intro h
    obtain ⟨left, right, hsplit⟩ := List.append_of_mem h
    cases domain with
    | nil => cases h
    | cons first rest =>
      rw [List.drop_succ_cons, List.drop_zero] at h hsplit
      have hrest : rest ≠ [] := fun he => by rw [he] at h; cases h
      refine ⟨first :: left, right ++ [rest.getLast hrest], ?_, List.cons_ne_nil _ _, by simp⟩
      calc first :: rest = first :: (rest.dropLast ++ [rest.getLast hrest]) := by
            rw [List.dropLast_append_getLast]
        _ = first :: left ++ a :: (right ++ [rest.getLast hrest]) := by
            rw [hsplit, List.append_assoc, List.cons_append, List.cons_append]
  · rintro ⟨left, right, rfl, hleft, hright⟩
    obtain ⟨first, left, rfl⟩ := List.exists_cons_of_ne_nil hleft
    rw [List.cons_append, List.drop_succ_cons, List.drop_zero,
      List.dropLast_append_of_ne_nil (List.cons_ne_nil _ _), List.dropLast_cons_of_ne_nil hright]
    exact List.mem_append_right _ List.mem_cons_self

theorem all_isAddressChar_iff :
    cs.all isAddressChar = true ↔ '@' ∉ cs ∧ ∀ c ∈ cs, Text.isBlank c = false := by
  simp only [List.all_eq_true, isAddressChar, Bool.and_eq_true, bne_iff_ne, Bool.not_eq_true']
  constructor
  · intro h
    exact ⟨fun hat => (h _ hat).1 rfl, fun c hc => (h c hc).2⟩
  · rintro ⟨hat, hblank⟩ c hc
    exact ⟨fun he => hat (he ▸ hc), hblank c hc⟩

theorem count_at_eq_one_iff :
    (mailbox ++ '@' :: domain).count '@' = 1 ↔ '@' ∉ mailbox ∧ '@' ∉ domain := by
  rw [List.count_append, List.count_cons_self, ← List.count_eq_zero, ← List.count_eq_zero]
  omega

theorem isAddress_iff : isAddress cs = true ↔ Address cs := by
  constructor
  · intro h
    obtain ⟨mailbox, domain, rfl, hat⟩ := List.eq_append_cons_of_mem (isAddress_at h)
    rw [isAddress_append hat] at h
    simp only [Bool.and_eq_true, all_isAddressChar_iff, List.contains_iff_mem, mem_inner_iff,
      Bool.not_eq_true', List.isEmpty_eq_false_iff] at h
    obtain ⟨⟨⟨hmailbox, -, hblank⟩, hat', hblank'⟩, left, right, rfl, hleft, hright⟩ := h
    refine ⟨fun c hc => ?_, count_at_eq_one_iff.2 ⟨hat, hat'⟩,
      mailbox, left, right, rfl, hmailbox, hleft, hright⟩
    rcases List.mem_append.1 hc with hc | hc
    · exact hblank c hc
    · rcases List.mem_cons.1 hc with rfl | hc
      · rfl
      · exact hblank' c hc
  · rintro ⟨hblank, hat, mailbox, left, right, rfl, hmailbox, hleft, hright⟩
    obtain ⟨hat, hat'⟩ := count_at_eq_one_iff.1 hat
    rw [isAddress_append hat]
    simp only [Bool.and_eq_true, all_isAddressChar_iff, List.contains_iff_mem, mem_inner_iff,
      Bool.not_eq_true', List.isEmpty_eq_false_iff]
    refine ⟨⟨⟨hmailbox, hat, fun c hc => hblank c ?_⟩, hat', fun c hc => hblank c ?_⟩,
      left, right, rfl, hleft, hright⟩
    · exact List.mem_append_left _ hc
    · exact List.mem_append_right _ (List.mem_cons_of_mem _ hc)

/-! ### Numbers -/

/-- The shape of a phone number: 7 to 15 digits, perhaps with a plus sign before them. -/
def Number (cs : List Char) : Prop :=
  ∃ digits : List Char, (cs = digits ∨ cs = '+' :: digits) ∧
    7 ≤ digits.length ∧ digits.length ≤ 15 ∧ ∀ c ∈ digits, '0' ≤ c ∧ c ≤ '9'

theorem isNumber_iff : isNumber cs = true ↔ Number cs := by
  simp only [isNumber, Bool.and_eq_true, decide_eq_true_eq, List.all_eq_true, and_assoc]
  constructor
  · intro h
    split at h
    next ds => exact ⟨ds, .inr rfl, h⟩
    next => exact ⟨cs, .inl rfl, h⟩
  · rintro ⟨digits, rfl | rfl, h⟩
    · split
      · exact absurd (h.2.2 _ List.mem_cons_self) (by decide)
      · exact h
    · exact h

/-- Nothing in a number is trimmed or dropped. -/
theorem Number.plain (h : Number cs) {c : Char} (hc : c ∈ cs) :
    Text.isBlank c = false ∧ isSeparator c = false := by
  have hdigits : ∀ n < 58, 48 ≤ n → Text.isBlank (Char.ofNat n) = false ∧
      isSeparator (Char.ofNat n) = false := by decide
  have hdigit (d : Char) (hd : '0' ≤ d ∧ d ≤ '9') :
      Text.isBlank d = false ∧ isSeparator d = false := by
    rw [← Char.ofNat_toNat d]
    exact hdigits d.toNat (Nat.lt_succ_of_le hd.2) hd.1
  obtain ⟨digits, hcs | hcs, -, -, h⟩ := h
  · exact hdigit c (h c (hcs ▸ hc))
  · rcases List.mem_cons.1 (hcs ▸ hc) with rfl | hc
    · decide
    · exact hdigit c (h c hc)

/-- A leading `00` written as `+`. -/
def withPlus : List Char → List Char
  | '0' :: '0' :: ds => '+' :: ds
  | ds => ds

theorem isSeparator_iff {c : Char} : isSeparator c = true ↔ c ∈ [' ', '-', '(', ')'] := by
  simp [isSeparator, or_assoc]

theorem compact_eq : compact cs = withPlus (cs.filter fun c => c ∉ [' ', '-', '(', ')']) := by
  have hsame (c : Char) : (!isSeparator c) = decide (c ∉ [' ', '-', '(', ')']) := by
    rw [Bool.eq_iff_iff, Bool.not_eq_true', decide_eq_true_eq, ← isSeparator_iff,
      Bool.not_eq_true]
  rw [← funext hsame]
  rfl

theorem withPlus_ne {ds : List Char} : withPlus cs ≠ '0' :: '0' :: ds := by
  intro h
  unfold withPlus at h
  split at h
  · cases h
  next hne => exact hne ds h

theorem withPlus_of_ne (h : ∀ ds, cs ≠ '0' :: '0' :: ds) : withPlus cs = cs := by
  unfold withPlus
  split
  next ds => exact absurd rfl (h ds)
  next => rfl

@[simp] theorem withPlus_withPlus : withPlus (withPlus cs) = withPlus cs :=
  withPlus_of_ne fun _ => withPlus_ne

/-- The characters of a number come from what it was read from, but for the plus sign. -/
theorem mem_withPlus {c : Char} (h : c ∈ cs) : c = '0' ∨ c ∈ withPlus cs := by
  unfold withPlus
  split
  next ds =>
    rcases List.mem_cons.1 h with rfl | h
    · exact .inl rfl
    · rcases List.mem_cons.1 h with rfl | h
      · exact .inl rfl
      · exact .inr (List.mem_cons_of_mem _ h)
  next => exact .inr h

/-! ### Spellings of one number -/

/-- One change to the spelling of a number. -/
inductive Respells : List Char → List Char → Prop
  /-- A separator is left out. -/
  | separator {c : Char} (front back : List Char) (h : c ∈ [' ', '-', '(', ')']) :
      Respells (front ++ c :: back) (front ++ back)
  /-- A blank at the front is left out. -/
  | front {c : Char} (cs : List Char) (h : Text.isBlank c = true) : Respells (c :: cs) cs
  /-- A blank at the back is left out. -/
  | back {c : Char} (cs : List Char) (h : Text.isBlank c = true) : Respells (cs ++ [c]) cs
  /-- The international prefix is written with a plus sign. -/
  | international (cs : List Char) : Respells ('0' :: '0' :: cs) ('+' :: cs)

/-- What is left of a spelling without separators and blanks, wherever they stand. -/
def core (cs : List Char) : List Char :=
  withPlus (cs.filter fun c => !Text.isBlank c && !isSeparator c)

theorem core_respells {cs ds : List Char} (h : Respells cs ds) : core cs = core ds := by
  cases h with
  | @separator c front back h =>
    have hdropped : (!Text.isBlank c && !isSeparator c) = false := by
      rw [isSeparator_iff.2 h, Bool.not_true, Bool.and_false]
    rw [core, core, List.filter_append, List.filter_append, List.filter_cons, hdropped]
    rfl
  | @front c _ h =>
    rw [core, core, List.filter_cons, h, Bool.not_true, Bool.false_and]
    rfl
  | @back c _ h =>
    rw [core, core, List.filter_append, List.filter_cons, h, Bool.not_true, Bool.false_and]
    exact congrArg withPlus (List.append_nil _)
  | international cs => rfl

theorem core_eqvGen {cs ds : List Char} (h : Relation.EqvGen Respells cs ds) :
    core cs = core ds := by
  induction h with
  | rel _ _ h => exact core_respells h
  | refl => rfl
  | symm _ _ _ ih => exact ih.symm
  | trans _ _ _ _ _ ih ih' => exact ih.trans ih'

/-- Blanks inside a number would have been kept and refused, so an accepted spelling has none but
at its ends and among the separators. -/
theorem core_eq_compact (h : Number (compact (Text.trim raw).toList)) :
    core raw.toList = compact (Text.trim raw).toList := by
  have hkept : ∀ c ∈ (Text.trimList raw.toList).filter fun c => !isSeparator c,
      (!Text.isBlank c) = true := by
    intro c hc
    rw [Text.trim, String.toList_ofList] at h
    rcases mem_withPlus hc with rfl | hc
    · rfl
    · rw [(h.plain hc).1, Bool.not_false]
  calc core raw.toList
      = withPlus ((Text.trimList raw.toList).filter
          fun c => !Text.isBlank c && !isSeparator c) := by
        rw [core, Text.filter_trimList]
        intro c hc
        rw [hc, Bool.not_true, Bool.false_and]
    _ = withPlus ((Text.trimList raw.toList).filter fun c => !isSeparator c) := by
        rw [← List.filter_filter, List.filter_eq_self.2 hkept]
    _ = compact (Text.trim raw).toList := by
        rw [Text.trim, String.toList_ofList]
        rfl

/-! ### Reading -/

theorem parse_eq_ok_iff {u : Username} : parse raw = .ok u ↔ parse? raw = some u := by
  unfold parse
  cases parse? raw with
  | none => exact ⟨nofun, nofun⟩
  | some v => rw [Except.ok.injEq, Option.some.injEq]

theorem parse_eq_error {e : AuthError} (h : parse raw = .error e) : e = .invalidUsername raw := by
  unfold parse at h
  split at h
  · cases h
  · exact (Except.error.inj h).symm

theorem parse?_eq_email_iff {e : String} :
    parse? raw = some (.email e) ↔ '@' ∈ (Text.trim raw).toList ∧
      e = Text.lower (Text.trim raw) ∧ Address e.toList := by
  simp only [parse?, List.contains_iff_mem]
  split
  next hat =>
    simp only [Option.ite_none_right_eq_some, Option.some.injEq, email.injEq, isAddress_iff]
    constructor
    · rintro ⟨haddress, rfl⟩
      exact ⟨hat, rfl, haddress⟩
    · rintro ⟨-, rfl, haddress⟩
      exact ⟨haddress, rfl⟩
  next hat => simp [hat]

theorem parse?_eq_phone_iff {p : String} :
    parse? raw = some (.phone p) ↔ '@' ∉ (Text.trim raw).toList ∧
      p.toList = compact (Text.trim raw).toList ∧ Number p.toList := by
  simp only [parse?, List.contains_iff_mem]
  split
  next hat => simp [hat]
  next hat =>
    simp only [Option.ite_none_right_eq_some, Option.some.injEq, phone.injEq, isNumber_iff]
    constructor
    · rintro ⟨hnumber, rfl⟩
      rw [String.toList_ofList]
      exact ⟨hat, rfl, hnumber⟩
    · rintro ⟨-, hp, hnumber⟩
      exact ⟨hp ▸ hnumber, by rw [← hp, String.ofList_toList]⟩

/-- The value of a username is a spelling of it. -/
theorem parse?_value {u : Username} (h : parse? raw = some u) : parse? u.value = some u := by
  cases u with
  | email e =>
    obtain ⟨-, he, haddress⟩ := parse?_eq_email_iff.1 h
    have htrim : Text.trim e = e := Text.trim_of_noBlank haddress.noBlank
    refine parse?_eq_email_iff.2 ⟨?_, ?_, haddress⟩
    · rw [value, htrim]
      exact isAddress_at (isAddress_iff.2 haddress)
    · rw [value, htrim, he, Text.lower_lower]
  | phone p =>
    obtain ⟨-, hp, hnumber⟩ := parse?_eq_phone_iff.1 h
    have htrim : Text.trim p = p := Text.trim_of_noBlank fun c hc => (hnumber.plain hc).1
    have hkept : p.toList.filter (fun c => !isSeparator c) = p.toList := by
      refine List.filter_eq_self.2 fun c hc => ?_
      rw [(hnumber.plain hc).2, Bool.not_false]
    refine parse?_eq_phone_iff.2 ⟨?_, ?_, hnumber⟩
    · rw [value, htrim]
      exact isNumber_at (isNumber_iff.2 hnumber)
    · calc p.toList = withPlus p.toList := by rw [hp, compact_eq, withPlus_withPlus]
        _ = withPlus (p.toList.filter fun c => !isSeparator c) := by rw [hkept]
        _ = compact (Text.trim p).toList := by rw [htrim]; rfl

theorem core_of_parse? {p : String} (h : parse? raw = some (.phone p)) :
    core raw.toList = p.toList := by
  obtain ⟨-, hp, hnumber⟩ := parse?_eq_phone_iff.1 h
  rw [core_eq_compact (hp ▸ hnumber), hp]

/-- `Username.parse` reads the two grammars and nothing else, and what it reads has one form: the
value of a username reads as that username, numbers are written with `+` and never with `00`, no
number is an address, and spellings of one number read as one username. -/
theorem parse_canonical (raw : String) :
    (∀ e, parse raw = .ok (.email e) ↔ '@' ∈ (Text.trim raw).toList ∧
      e = Text.lower (Text.trim raw) ∧ Address e.toList) ∧
    (∀ p, parse raw = .ok (.phone p) ↔ '@' ∉ (Text.trim raw).toList ∧
      p.toList = withPlus ((Text.trim raw).toList.filter fun c => c ∉ [' ', '-', '(', ')']) ∧
      Number p.toList) ∧
    (∀ e, parse raw = .error e → e = .invalidUsername raw) ∧
    (∀ u, parse raw = .ok u → parse u.value = .ok u) ∧
    (∀ p, parse raw = .ok (.phone p) → ∀ ds, p.toList ≠ '0' :: '0' :: ds) ∧
    (∀ p raw' e, parse raw = .ok (.phone p) → parse raw' = .ok (.email e) → p ≠ e) ∧
    ∀ p raw' p', parse raw = .ok (.phone p) → parse raw' = .ok (.phone p') →
      Relation.EqvGen Respells raw.toList raw'.toList → p = p' := by
  simp only [parse_eq_ok_iff, ← compact_eq]
  refine ⟨fun e => parse?_eq_email_iff, fun p => parse?_eq_phone_iff, fun e => parse_eq_error,
    fun u => parse?_value, fun p hp ds => ?_, fun p raw' e hp he heq => ?_,
    fun p raw' p' hp hp' h => ?_⟩
  · rw [(parse?_eq_phone_iff.1 hp).2.1, compact_eq]
    exact withPlus_ne
  · exact Username.noConfusion (eq_of_value_eq hp he heq)
  · rw [← String.toList_inj, ← core_of_parse? hp, ← core_of_parse? hp', core_eqvGen h]

/-- Two spellings of a number and an address. -/
theorem parse_canonical_spellings :
    parse "\t0049 1234567" = .ok (.phone "+491234567") ∧
      parse "+491234567" = .ok (.phone "+491234567") ∧
      Relation.EqvGen Respells "\t0049 1234567".toList "+491234567".toList ∧
      (∀ p, parse "+491234567" = .ok (.phone p) → "+491234567" = p) ∧
      parse "Ann@Mail.Example" = .ok (.email "ann@mail.example") ∧
      parse "ann@mail.example" = .ok (.email "ann@mail.example") ∧
      Address "ann@mail.example".toList ∧ Number "+491234567".toList ∧
      "+491234567" ≠ "ann@mail.example" := by
  obtain ⟨-, hphone, -, -, -, hne, hone⟩ := parse_canonical "\t0049 1234567"
  obtain ⟨hemail, -, -, hagain, -⟩ := parse_canonical "Ann@Mail.Example"
  have hfirst : parse "\t0049 1234567" = .ok (.phone "+491234567") := rfl
  have haddress : parse "Ann@Mail.Example" = .ok (.email "ann@mail.example") := rfl
  have hrespelled : Relation.EqvGen Respells "\t0049 1234567".toList "+491234567".toList := by
    have hblank := Relation.EqvGen.rel _ _ (Respells.front (c := '\t') "0049 1234567".toList rfl)
    have hspace := Relation.EqvGen.rel _ _
      (Respells.separator (c := ' ') "0049".toList "1234567".toList (by decide))
    have hplus := Relation.EqvGen.rel _ _ (Respells.international "491234567".toList)
    exact hblank.trans _ _ _ (hspace.trans _ _ _ hplus)
  have hsame : ∀ p, parse "+491234567" = .ok (.phone p) → "+491234567" = p :=
    fun p hp => hone _ _ p hfirst hp hrespelled
  have hvalue : parse "ann@mail.example" = .ok (.email "ann@mail.example") :=
    hagain (.email "ann@mail.example") haddress
  exact ⟨hfirst, rfl, hrespelled, hsame, haddress, hvalue, ((hemail _).1 haddress).2.2,
    ((hphone _).1 hfirst).2.2, hne _ _ _ hfirst haddress⟩

end Username

end AuthCore
