import AuthCore.Proofs.Json.Decode
import AuthCore.Proofs.Json.Shape

/-!
# Readers of records

A record is read by taking its known members and then one field after the other. What is read
depends on no more than what stands under the names of the fields, and there an edit of the document
does one of three things (`Json.FieldEdit`). So a reader follows the shape of the record if each of
the fields is read by a reader that follows its shape (`Json.follows_record`).
-/

namespace AuthCore.Json

variable {α β : Type} {f : Json → Option α} {fields : List (String × Shape)} {shape : Shape}
  {name : String} {j : Json} {ms ms' : List (String × Json)} {fs fs' : Fields}

/-! ### Known members -/

/-- What an edit of a record does to one of its fields. -/
inductive FieldEdit (shape : Shape) : Option Json → Option Json → Prop
  | same (o : Option Json) : FieldEdit shape o o
  | edit {j j'} (edit : Edit shape j j') : FieldEdit shape (some j) (some j')
  | dropNull : FieldEdit shape (some .null) none

theorem lookup_eq_some_iff (h : (fs.map Prod.fst).Nodup) :
    fs.lookup name = some j ↔ (name, j) ∈ fs := by
  induction fs with
  | nil => simp
  | cons m fs ih =>
    obtain ⟨k, i⟩ := m
    obtain ⟨hk, hfs⟩ := List.nodup_cons.1 h
    rw [List.lookup_cons, List.mem_cons]
    by_cases he : name = k
    · subst he
      have habsent : (name, j) ∉ fs := fun hm => hk (List.mem_map.2 ⟨_, hm, rfl⟩)
      simp [habsent, eq_comm]
    · have hb : (name == k) = false := beq_false_of_ne he
      simp only [hb, ih hfs, Prod.mk.injEq, he, false_and, false_or]

/-- The order of the fields does not matter to what stands under a name. -/
theorem lookup_of_perm (h : (fs.map Prod.fst).Nodup) (hperm : fs.Perm fs') (name : String) :
    fs'.lookup name = fs.lookup name := by
  have h' : (fs'.map Prod.fst).Nodup := (hperm.map Prod.fst).nodup_iff.1 h
  refine Option.ext fun j => ?_
  rw [lookup_eq_some_iff h, lookup_eq_some_iff h', hperm.mem_iff]

/-- The members with known names. -/
def known (names : List String) (ms : List (String × Json)) : Fields :=
  ms.filter fun m => names.contains m.1

theorem fields?_object_eq_some {names : List String} :
    fields? names (.object ms) = some fs ↔ known names ms = fs ∧ (fs.map Prod.fst).Nodup := by
  show (if (((known names ms).map Prod.fst).Nodup) then some (known names ms) else none) = _ ↔ _
  constructor
  · intro h
    split at h
    next hnodup => exact ⟨Option.some.inj h, Option.some.inj h ▸ hnodup⟩
    next => cases h
  · rintro ⟨rfl, hnodup⟩
    exact if_pos hnodup

/-- A record with known members, none of which repeats, has just these. -/
theorem fields?_of_names {names : List String} (h : ms.map Prod.fst ⊆ names)
    (hnodup : (ms.map Prod.fst).Nodup) : fields? names (.object ms) = some ms := by
  refine fields?_object_eq_some.2 ⟨List.filter_eq_self.2 fun m hm => ?_, hnodup⟩
  exact List.contains_iff_mem.2 (h (List.mem_map_of_mem hm))

theorem known_cons_of_mem {names : List String} (h : name ∈ names) :
    known names ((name, j) :: ms) = (name, j) :: known names ms :=
  List.filter_cons_of_pos (List.contains_iff_mem.2 h)

theorem known_cons_of_notMem {names : List String} (h : name ∉ names) :
    known names ((name, j) :: ms) = known names ms :=
  List.filter_cons_of_neg fun hc => h (List.contains_iff_mem.1 hc)

/-- An edit of a record keeps the known members apart, and does to each field what it may do. -/
theorem fields?_edit (hnodup : (fields.map Prod.fst).Nodup) {j' : Json}
    (h : Edit (.record fields) j j') (hread : fields? (fields.map Prod.fst) j = some fs) :
    ∃ fs', fields? (fields.map Prod.fst) j' = some fs' ∧
      ∀ p ∈ fields, FieldEdit p.2 (fs.lookup p.1) (fs'.lookup p.1) := by
  cases h with
  | @reorder _ ms ms' hperm =>
    obtain ⟨rfl, hfs⟩ := fields?_object_eq_some.1 hread
    have hknown : (known (fields.map Prod.fst) ms).Perm (known (fields.map Prod.fst) ms') :=
      hperm.filter _
    refine ⟨_, fields?_object_eq_some.2 ⟨rfl, (hknown.map Prod.fst).nodup_iff.1 hfs⟩, ?_⟩
    intro p _
    rw [lookup_of_perm hfs hknown]
    exact .same _
  | add hunknown =>
    obtain ⟨rfl, hfs⟩ := fields?_object_eq_some.1 hread
    refine ⟨_, fields?_object_eq_some.2 ⟨known_cons_of_notMem hunknown, hfs⟩, ?_⟩
    exact fun p _ => .same _
  | @dropNull _ ms name =>
    obtain ⟨hknown, hfs⟩ := fields?_object_eq_some.1 hread
    by_cases hname : name ∈ fields.map Prod.fst
    · rw [known_cons_of_mem hname] at hknown
      subst hknown
      obtain ⟨habsent, hrest⟩ := List.nodup_cons.1 hfs
      refine ⟨_, fields?_object_eq_some.2 ⟨rfl, hrest⟩, fun p _ => ?_⟩
      rw [List.lookup_cons]
      by_cases he : p.1 = name
      · have hnone : (known (fields.map Prod.fst) ms).lookup name = none :=
          List.lookup_eq_none_iff.2 fun q hq =>
            bne_iff_ne.2 fun he => habsent (List.mem_map.2 ⟨q, hq, he.symm⟩)
        rw [he, beq_self_eq_true, hnone]
        exact .dropNull
      · rw [beq_false_of_ne he]
        exact .same _
    · rw [known_cons_of_notMem hname] at hknown
      exact ⟨fs, fields?_object_eq_some.2 ⟨hknown, hfs⟩, fun p _ => .same _⟩
  | @member _ name shape i i' ms hfield hedit =>
    have hname : name ∈ fields.map Prod.fst := List.mem_map.2 ⟨_, hfield, rfl⟩
    obtain ⟨hknown, hfs⟩ := fields?_object_eq_some.1 hread
    rw [known_cons_of_mem hname] at hknown
    subst hknown
    refine ⟨_, fields?_object_eq_some.2 ⟨known_cons_of_mem hname, hfs⟩, fun p hp => ?_⟩
    rw [List.lookup_cons, List.lookup_cons]
    by_cases he : p.1 = name
    · obtain rfl : p = (name, shape) := List.inj_on_of_nodup_map hnodup hp hfield he
      rw [beq_self_eq_true]
      exact .edit hedit
    · rw [beq_false_of_ne he]
      exact .same _

/-- A known member that repeats is refused. -/
theorem fields?_of_duplicate {names : List String} (hname : name ∈ names)
    (h : (ms.map Prod.fst).Duplicate name) : fields? names (.object ms) = none := by
  refine if_neg fun hnodup => ?_
  have hmap : (known names ms).map Prod.fst = (ms.map Prod.fst).filter names.contains := by
    rw [List.filter_map]
    rfl
  have htwo := List.duplicate_iff_two_le_count.1 h
  have hone := List.nodup_iff_count_le_one.1 hnodup name
  rw [← known, hmap, List.count_filter (List.contains_iff_mem.2 hname)] at hone
  omega

/-! ### Readers of fields -/

namespace Fields

/-- A reader of fields that reads the same before and after an edit, and refuses it if a known
member repeats in one of them. -/
structure Follows (g : Fields → Option α) (fields : List (String × Shape)) : Prop where
  edit : ∀ {fs fs' a}, (∀ p ∈ fields, FieldEdit p.2 (fs.lookup p.1) (fs'.lookup p.1)) →
    g fs = some a → g fs' = some a
  repeated : ∀ {fs p j}, p ∈ fields → fs.lookup p.1 = some j → Repeats p.2 j → g fs = none

/-- A reader that reads one more field first. -/
theorem Follows.cons {read : Fields → Option β} {g : β → Fields → Option α}
    (hedit : ∀ {fs fs' b}, FieldEdit shape (fs.lookup name) (fs'.lookup name) →
      read fs = some b → read fs' = some b)
    (hrepeated : ∀ {fs j}, fs.lookup name = some j → Repeats shape j → read fs = none)
    (hg : ∀ b, Follows (g b) fields) :
    Follows (fun fs => read fs >>= fun b => g b fs) ((name, shape) :: fields) where
  edit := by
    intro fs fs' a hfields hread
    obtain ⟨hfield, hfields⟩ := List.forall_mem_cons.1 hfields
    obtain ⟨b, hb, ha⟩ := Option.bind_eq_some_iff.1 hread
    exact Option.bind_eq_some_iff.2 ⟨b, hedit hfield hb, (hg b).edit hfields ha⟩
  repeated := by
    intro fs p j hp hj hrepeats
    rcases List.mem_cons.1 hp with rfl | hp
    · rw [hrepeated hj hrepeats]
      rfl
    · refine Option.bind_eq_none_iff.2 fun b _ => (hg b).repeated hp hj hrepeats

theorem Follows.pure (a : α) : Follows (fun _ => some a) [] where
  edit _ h := h
  repeated hp := nomatch hp

theorem Follows.need {f : Json → Option β} {g : β → Fields → Option α} (hf : Json.Follows f shape)
    (hg : ∀ b, Follows (g b) fields) :
    Follows (fun fs => fs.need name f >>= fun b => g b fs) ((name, shape) :: fields) := by
  refine .cons ?_ ?_ hg
  · intro fs fs' b hedit hread
    rw [Fields.need] at hread ⊢
    generalize fs.lookup name = o at hedit hread
    generalize fs'.lookup name = o' at hedit ⊢
    cases hedit with
    | same => exact hread
    | edit hedit => exact hf.edit hedit hread
    | dropNull => cases hf.null.symm.trans hread
  · intro fs j hj hrepeats
    rw [Fields.need, hj, Option.bind_some, hf.repeated hrepeats]

theorem Follows.maybe {f : Json → Option β} {g : Option β → Fields → Option α}
    (hf : Json.Follows f shape) (hg : ∀ b, Follows (g b) fields) :
    Follows (fun fs => fs.maybe name f >>= fun b => g b fs) ((name, shape) :: fields) := by
  refine .cons ?_ ?_ hg
  · intro fs fs' b hedit hread
    generalize ho : fs.lookup name = o at hedit
    generalize ho' : fs'.lookup name = o' at hedit
    cases hedit with
    | same => rwa [Fields.maybe, ho', ← ho, ← Fields.maybe]
    | @edit j j' hedit =>
      have hj : j ≠ .null := fun h => not_edit_null (h ▸ hedit)
      rw [maybe_of_some ho hj] at hread
      obtain ⟨c, hc, rfl⟩ := Option.map_eq_some_iff.1 hread
      rw [maybe_of_some ho' (edit_ne_null hedit), hf.edit hedit hc, Option.map_some]
    | dropNull => rwa [maybe_of_none ho', ← maybe_of_null ho]
  · intro fs j hj hrepeats
    have hnull : j ≠ .null := fun h => not_repeats_null (h ▸ hrepeats)
    rw [maybe_of_some hj hnull, hf.repeated hrepeats, Option.map_none]

end Fields

/-- A reader of a record follows its shape if the reader of its fields does. -/
theorem follows_record {g : Fields → Option α}
    (hf : ∀ j, f j = fields? (fields.map Prod.fst) j >>= g)
    (hnodup : (fields.map Prod.fst).Nodup) (hg : Fields.Follows g fields) :
    Follows f (.record fields) where
  edit := by
    intro j j' a hedit hread
    rw [hf] at hread ⊢
    obtain ⟨fs, hfs, ha⟩ := Option.bind_eq_some_iff.1 hread
    obtain ⟨fs', hfs', hfields⟩ := fields?_edit hnodup hedit hfs
    exact Option.bind_eq_some_iff.2 ⟨fs', hfs', hg.edit hfields ha⟩
  repeated := by
    intro j hrepeats
    rw [hf]
    obtain ⟨ms, rfl, ⟨name, hname, htwice⟩ | ⟨name, shape, i, hfield, hi, hrepeats⟩⟩ :=
      repeats_record_iff.1 hrepeats
    · rw [fields?_of_duplicate hname htwice]
      rfl
    · refine Option.bind_eq_none_iff.2 fun fs hfs => ?_
      obtain ⟨rfl, hnodup⟩ := fields?_object_eq_some.1 hfs
      have hname : name ∈ fields.map Prod.fst := List.mem_map.2 ⟨_, hfield, rfl⟩
      have hmem : (name, i) ∈ known (fields.map Prod.fst) ms :=
        List.mem_filter.2 ⟨hi, List.contains_iff_mem.2 hname⟩
      exact hg.repeated hfield ((lookup_eq_some_iff hnodup).2 hmem) hrepeats
  null := by
    rw [hf]
    rfl

end AuthCore.Json
