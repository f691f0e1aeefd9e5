import AuthCore.Proofs.Json.Decode
import AuthCore.Proofs.OrderedMap
import AuthCore.Permission.Basic

/-!
# Sets of rules and their written forms

A set of rules is determined by the rules in it, so the list of its rules, and with it its written
form, stands for the same set. Permissions read back for the same reason.
-/

namespace AuthCore

namespace RuleSet

variable {s t : RuleSet}

/-- Sets with the same rules are the same. -/
theorem ext_contains (h : ∀ rule, s.contains rule = t.contains rule) : s = t := by
  obtain ⟨s⟩ := s
  obtain ⟨t⟩ := t
  refine congrArg RuleSet.mk (OrderedMap.ext_get? fun rule => ?_)
  have hr : (s.get? rule).isSome = (t.get? rule).isSome := h rule
  cases hs : s.get? rule <;> cases ht : t.get? rule
  · rfl
  · rw [hs, ht] at hr; cases hr
  · rw [hs, ht] at hr; cases hr
  · rfl

theorem mem_toList {rule : String} : rule ∈ s.toList ↔ s.contains rule = true :=
  OrderedMap.mem_keys_iff

theorem contains_insert {rule r : String} :
    (s.insert rule).contains r = true ↔ r = rule ∨ s.contains r = true := by
  rw [contains, insert, OrderedMap.contains, OrderedMap.get?_insert]
  split
  next h => exact iff_of_true rfl (.inl h)
  next h => exact ⟨.inr, fun h' => h'.resolve_left h⟩

theorem contains_insertAll {rules : List String} {r : String} :
    (s.insertAll rules).contains r = true ↔ r ∈ rules ∨ s.contains r = true := by
  induction rules generalizing s with
  | nil => exact ⟨.inr, fun h => h.resolve_left List.not_mem_nil⟩
  | cons rule rules ih =>
    rw [show s.insertAll (rule :: rules) = (s.insert rule).insertAll rules from rfl, ih,
      contains_insert, List.mem_cons]
    tauto

/-- The set of a list has the rules of the list. -/
theorem contains_ofList {rules : List String} {r : String} :
    (ofList rules).contains r = true ↔ r ∈ rules := by
  rw [ofList, contains_insertAll]
  exact or_iff_left Bool.false_ne_true

@[simp] theorem ofList_toList (s : RuleSet) : ofList s.toList = s :=
  ext_contains fun _ => Bool.eq_iff_iff.2 (contains_ofList.trans mem_toList)

@[simp] theorem ofJson?_toJson (s : RuleSet) : ofJson? s.toJson = some s := by
  rw [ofJson?, toJson, Json.list?_strings, Option.map_some, ofList_toList]

end RuleSet

open Json.Fields in
@[simp] theorem Permission.ofJson?_toJson (p : Permission) : ofJson? p.toJson = some p :=
  fields?_bind rfl <| need_bind rfl rfl <| need_bind rfl p.rules.ofJson?_toJson rfl

end AuthCore
