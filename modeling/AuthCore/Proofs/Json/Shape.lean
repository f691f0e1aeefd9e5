import AuthCore.Json.Decode
import AuthCore.Proofs.Text.Order
import Mathlib.Data.List.Count
import Mathlib.Data.List.Duplicate
import Mathlib.Data.List.Perm.Basic
import Mathlib.Logic.Relation

/-!
# Shapes of documents

A shape says which objects of a document have known members, and which of its arrays are sets. It
says with that how a document may be edited without a change of what it says (`Json.Edit`): members
change places, unknown ones are added, those that are `null` are dropped, and the items of a set
change places and repeat. A reader that follows the shape (`Json.Follows`) reads the same before and
after such an edit, and refuses a document with a known member twice. Whether a reader does so can
be seen from how it is put together, field by field.
-/

namespace AuthCore.Json

/-- How a document is built. -/
inductive Shape where
  /-- A value without parts that count. -/
  | scalar
  /-- An array of texts, of which neither the order nor repetitions count. -/
  | set
  /-- An array with items of one shape. -/
  | list (item : Shape)
  /-- An object with members that are known by name. -/
  | record (fields : List (String × Shape))

/-- One edit that leaves alone what a document of a shape says. -/
inductive Edit : Shape → Json → Json → Prop
  /-- Members change places. -/
  | reorder {fields ms ms'} (perm : ms.Perm ms') : Edit (.record fields) (.object ms) (.object ms')
  /-- A member with an unknown name is added. -/
  | add {fields name ms} (unknown : name ∉ fields.map Prod.fst) (j : Json) :
      Edit (.record fields) (.object ms) (.object ((name, j) :: ms))
  /-- A member that is `null` is dropped. -/
  | dropNull {fields ms} (name : String) :
      Edit (.record fields) (.object ((name, .null) :: ms)) (.object ms)
  /-- The items of a set change places and repeat. -/
  | respell {items items'} (same : ∀ j, j ∈ items' ↔ j ∈ items) :
      Edit .set (.array items) (.array items')
  /-- A known member is edited. -/
  | member {fields name shape j j' ms} (known : (name, shape) ∈ fields) (edit : Edit shape j j') :
      Edit (.record fields) (.object ((name, j) :: ms)) (.object ((name, j') :: ms))
  /-- An item of a list is edited. -/
  | item {shape before j j' after} (edit : Edit shape j j') :
      Edit (.list shape) (.array (before ++ j :: after)) (.array (before ++ j' :: after))

/-- A part of a document of a shape, and the shape of the part. -/
inductive Part : Shape → Json → Shape → Json → Prop
  | whole {shape j} : Part shape j shape j
  | member {fields ms name shape j shape' j'} (known : (name, shape) ∈ fields)
      (has : (name, j) ∈ ms) (part : Part shape j shape' j') :
      Part (.record fields) (.object ms) shape' j'
  | item {shape items j shape' j'} (has : j ∈ items) (part : Part shape j shape' j') :
      Part (.list shape) (.array items) shape' j'

/-- A document that has a known member twice somewhere. -/
def Repeats (shape : Shape) (j : Json) : Prop :=
  ∃ fields ms name, Part shape j (.record fields) (.object ms) ∧ name ∈ fields.map Prod.fst ∧
    (ms.map Prod.fst).Duplicate name

/-- A document whose sets are written in strictly ascending order of their bytes. -/
def Ascending (shape : Shape) (j : Json) : Prop :=
  ∀ j', Part shape j .set j' →
    ∃ texts, j' = .strings texts ∧ texts.Pairwise fun s t => Text.utf8 s < Text.utf8 t

/-- A reader that reads the same before and after an edit, and refuses known members that repeat and
a document that is `null`. -/
structure Follows {α : Type} (f : Json → Option α) (shape : Shape) : Prop where
  edit : ∀ {j j' a}, Edit shape j j' → f j = some a → f j' = some a
  repeated : ∀ {j}, Repeats shape j → f j = none
  null : f .null = none

/-- A reader that reads the same after several edits. -/
theorem Follows.edits {α : Type} {f : Json → Option α} {shape : Shape} (hf : Follows f shape)
    {j j' : Json} {a : α} (h : Relation.ReflTransGen (Edit shape) j j') (hj : f j = some a) :
    f j' = some a := by
  induction h with
  | refl => exact hj
  | tail _ hedit ih => exact hf.edit hedit ih

/-! ### Members that repeat -/

section Repeats

variable {shape : Shape} {fields : List (String × Shape)} {ms : List (String × Json)}
  {items : List Json} {j : Json}

theorem not_repeats_scalar : ¬ Repeats .scalar j := by
  rintro ⟨_, _, _, hpart, -⟩
  cases hpart

theorem not_repeats_set : ¬ Repeats .set j := by
  rintro ⟨_, _, _, hpart, -⟩
  cases hpart

theorem repeats_list_iff :
    Repeats (.list shape) j ↔ ∃ items i, j = .array items ∧ i ∈ items ∧ Repeats shape i := by
  constructor
  · rintro ⟨fields, ms, name, hpart, htwice⟩
    cases hpart with
    | item hi hpart => exact ⟨_, _, rfl, hi, fields, ms, name, hpart, htwice⟩
  · rintro ⟨items, i, rfl, hi, fields, ms, name, hpart, htwice⟩
    exact ⟨fields, ms, name, .item hi hpart, htwice⟩

/-- In a record a member repeats, or something repeats in a member. -/
theorem repeats_record_iff : Repeats (.record fields) j ↔ ∃ ms, j = .object ms ∧
    ((∃ name ∈ fields.map Prod.fst, (ms.map Prod.fst).Duplicate name) ∨
      ∃ name shape i, (name, shape) ∈ fields ∧ (name, i) ∈ ms ∧ Repeats shape i) := by
  constructor
  · rintro ⟨fields', ms, name, hpart, hknown, htwice⟩
    cases hpart with
    | whole => exact ⟨ms, rfl, .inl ⟨name, hknown, htwice⟩⟩
    | member hfield hi hpart =>
      exact ⟨_, rfl, .inr ⟨_, _, _, hfield, hi, fields', ms, name, hpart, hknown, htwice⟩⟩
  · rintro ⟨ms, rfl, ⟨name, hknown, htwice⟩ | ⟨name, shape, i, hfield, hi, fields', ms', name',
      hpart, htwice⟩⟩
    · exact ⟨fields, ms, name, .whole, hknown, htwice⟩
    · exact ⟨fields', ms', name', .member hfield hi hpart, htwice⟩

end Repeats

/-! ### Sets in ascending order -/

section Ascending

variable {shape : Shape} {fields : List (String × Shape)} {ms : List (String × Json)}
  {items : List Json} {j : Json}

@[simp] theorem ascending_scalar : Ascending .scalar j := by
  intro j' hpart
  cases hpart

theorem ascending_list (h : ∀ i ∈ items, Ascending shape i) :
    Ascending (.list shape) (.array items) := by
  intro j' hpart
  cases hpart with
  | item hi hpart => exact h _ hi j' hpart

@[simp] theorem ascending_strings (texts : List String) :
    Ascending (.list .scalar) (strings texts) :=
  ascending_list fun _ _ => ascending_scalar

theorem ascending_record (h : ∀ p ∈ fields, ∀ i, (p.1, i) ∈ ms → Ascending p.2 i) :
    Ascending (.record fields) (.object ms) := by
  intro j' hpart
  cases hpart with
  | member hfield hi hpart => exact h _ hfield _ hi j' hpart

end Ascending

/-! ### Readers of values -/

section Readers

variable {α : Type} {f : Json → Option α} {shape : Shape} {j j' : Json}

theorem not_edit_null : ¬ Edit shape .null j' := by
  rintro ⟨⟩

theorem edit_ne_null (h : Edit shape j j') : j' ≠ .null := by
  cases h <;> exact Json.noConfusion

theorem not_repeats_null : ¬ Repeats shape .null := by
  rintro ⟨_, _, _, hpart, -⟩
  cases hpart

theorem follows_scalar (h : f .null = none) : Follows f .scalar where
  edit := nofun
  repeated hj := absurd hj not_repeats_scalar
  null := h

theorem mapM_eq_none {items : List Json} (hj : j ∈ items) (h : f j = none) :
    items.mapM f = none := by
  obtain ⟨before, after, rfl⟩ := List.append_of_mem hj
  rw [List.mapM_append, List.mapM_cons, h]
  cases before.mapM f <;> rfl

theorem follows_list (hf : Follows f shape) : Follows (list? f) (.list shape) where
  edit := by
    intro _ _ as hedit hread
    cases hedit with
    | @item _ before j j' after hedit =>
      rw [list?] at hread ⊢
      cases hj : f j with
      | none =>
        have hmem : j ∈ before ++ j :: after := List.mem_append_right before List.mem_cons_self
        cases hread.symm.trans (mapM_eq_none hmem hj)
      | some a =>
        rw [← hread, List.mapM_append, List.mapM_append, List.mapM_cons, List.mapM_cons, hj,
          hf.edit hedit hj]
  repeated := by
    intro j hj
    obtain ⟨items, i, rfl, hi, hrepeats⟩ := repeats_list_iff.1 hj
    exact mapM_eq_none hi (hf.repeated hrepeats)
  null := rfl

end Readers

end AuthCore.Json
