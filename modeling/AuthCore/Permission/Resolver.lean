import AuthCore.Action

/-!
# What users may do

The permissions of a user are those granted directly together with those of all enabled groups the
user is in. The rules of a permission have to be in the catalog.
-/

namespace AuthCore.Permissions

/-- The names in a list that no group has. -/
def missing (groups : List Group) (names : List String) : List String :=
  names.filter fun name => !groups.any fun g => g.name == name

/-- What a user is granted directly and through groups. -/
def granted (u : User) (groups : List Group) : PermissionMap :=
  (groups.filter (·.isEnable)).foldl (fun m g => PermissionMap.merge m g.permissions)
    (PermissionMap.merge .empty u.permissions)

/-- Everything that a user may do. -/
def effective (u : User) : Action PermissionMap := do
  if u.groups.isEmpty then return granted u []
  let groups ← Action.query (·.findGroups u.groups)
  (missing groups u.groups).forM fun name => Action.log (.groupMissing u.id name)
  return granted u groups

/-- Checks that a user may do something; nothing is always allowed. -/
def check (u : User) (scope : Option Scope) : Action Unit := do
  let some s := scope | return ()
  let map ← effective u
  if PermissionMap.allows map s then return ()
  else
    Action.log (.permissionDenied u.id s.entity s.rule)
    Action.reject (.permissionDenied s.entity s.rule)

/-- The rules of a set that an entity does not have. -/
def invalid (e : EntityRules) (rules : RuleSet) : List String :=
  rules.toList.filter fun rule => !e.validRules.contains rule

/-- Checks that an entity of the catalog has all rules of a set. -/
def validateRules (entity : String) (rules : RuleSet) : Action Unit := do
  let e ← Action.query (·.findEntity entity)
  let e ← Action.orReject (.unknownEntity entity) e
  let bad := invalid e rules
  Action.require bad.isEmpty (.invalidRules entity bad)

/-- Checks permissions one after the other. -/
def validate (ps : List Permission) : Action Unit :=
  ps.forM fun p => validateRules p.entity p.rules

end AuthCore.Permissions
