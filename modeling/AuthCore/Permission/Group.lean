import AuthCore.Permission.Basic

/-!
# Groups and the rule catalog

Users get permissions from the groups they are in. The catalog says which rules each entity has.
-/

namespace AuthCore

/-- A named bundle of permissions; a disabled group grants nothing. -/
structure Group where
  /-- The unique name. -/
  name : String
  /-- A description for people. -/
  description : Option String
  /-- What members are granted. -/
  permissions : List Permission
  /-- Whether the group grants anything. -/
  isEnable : Bool
  deriving DecidableEq, Inhabited

/-- A partial update of a group; what is `none` stays. -/
structure GroupUpdate where
  /-- The new description. -/
  description : Option String := none
  /-- The new permissions, in the place of all old ones. -/
  permissions : Option (List Permission) := none
  /-- The new state. -/
  isEnable : Option Bool := none
  deriving DecidableEq, Inhabited

/-- The rules that an entity of the catalog has. -/
structure EntityRules where
  /-- The unique code name of the entity. -/
  codeName : String
  /-- Its rules. -/
  validRules : RuleSet
  deriving DecidableEq, Inhabited

namespace Group

/-- An enabled group without a description. -/
def enabled (name : String) (permissions : List Permission) : Group :=
  ⟨name, none, permissions, true⟩

/-- The group after an update. -/
def update (g : Group) (u : GroupUpdate) : Group :=
  { g with
    description := u.description.or g.description
    permissions := u.permissions.getD g.permissions
    isEnable := u.isEnable.getD g.isEnable }

/-- The written form. -/
def toJson (g : Group) : Json :=
  .object
    [("name", .string g.name), ("description", .stringOrNull g.description),
     ("permissions", .array (g.permissions.map Permission.toJson)), ("is_enable", .bool g.isEnable)]

/-- Reads the written form. -/
def ofJson? (j : Json) : Option Group := do
  let fs ← j.fields? ["name", "description", "permissions", "is_enable"]
  let name ← fs.need "name" Json.string?
  let description ← fs.maybe "description" Json.string?
  let permissions ← fs.need "permissions" (Json.list? Permission.ofJson?)
  let isEnable ← fs.need "is_enable" Json.bool?
  return ⟨name, description, permissions, isEnable⟩

end Group

namespace EntityRules

/-- The written form. -/
def toJson (e : EntityRules) : Json :=
  .object [("code_name", .string e.codeName), ("valid_rules", e.validRules.toJson)]

/-- Reads the written form. -/
def ofJson? (j : Json) : Option EntityRules := do
  let fs ← j.fields? ["code_name", "valid_rules"]
  let codeName ← fs.need "code_name" Json.string?
  let validRules ← fs.need "valid_rules" RuleSet.ofJson?
  return ⟨codeName, validRules⟩

end EntityRules

end AuthCore
