import AuthCore.RuleSet

/-!
# Permissions

A permission grants rules on one entity. A permission map holds what is granted in all: for each
entity the union of its rules.
-/

namespace AuthCore

/-- The rules granted on one entity. -/
structure Permission where
  /-- The code name of the entity. -/
  entity : String
  /-- The granted rules. -/
  rules : RuleSet
  deriving DecidableEq, Inhabited

/-- What a request needs: one rule on one entity. -/
structure Scope where
  /-- The code name of the entity. -/
  entity : String
  /-- The needed rule. -/
  rule : String
  deriving DecidableEq, Repr

/-- The rules granted on each entity. -/
abbrev PermissionMap := OrderedMap String RuleSet

namespace Permission

/-- The written form. -/
def toJson (p : Permission) : Json :=
  .object [("entity", .string p.entity), ("rules", p.rules.toJson)]

/-- Reads the written form. -/
def ofJson? (j : Json) : Option Permission := do
  let fs ← j.fields? ["entity", "rules"]
  let entity ← fs.need "entity" Json.string?
  let rules ← fs.need "rules" RuleSet.ofJson?
  return ⟨entity, rules⟩

end Permission

namespace PermissionMap

/-- The rules granted on an entity. -/
def rules (m : PermissionMap) (entity : String) : RuleSet := (m.get? entity).getD .empty

/-- Adds one permission. -/
def grant (m : PermissionMap) (p : Permission) : PermissionMap :=
  m.insert p.entity ((rules m p.entity).union p.rules)

/-- Adds a list of permissions. -/
def merge (m : PermissionMap) (ps : List Permission) : PermissionMap := ps.foldl grant m

/-- Whether a scope is granted. -/
def allows (m : PermissionMap) (s : Scope) : Bool :=
  match m.get? s.entity with
  | some rules => rules.contains s.rule
  | none => false

/-- The written form: an object from entities to rules. -/
def toJson (m : PermissionMap) : Json :=
  .object (m.entries.map fun e => (e.1, e.2.toJson))

/-- Reads the written form. -/
def ofJson? : Json → Option PermissionMap
  | .object ms => (ms.mapM fun m => (RuleSet.ofJson? m.2).map fun rules => (m.1, rules)).map .ofList
  | _ => none

end PermissionMap

end AuthCore
