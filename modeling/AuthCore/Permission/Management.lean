import AuthCore.Permission.Resolver

/-!
# Managing groups

Groups are created and updated only with permissions from the catalog, and a group that still has
users is never deleted.
-/

namespace AuthCore.Groups

/-- Creates a group. -/
def create (g : Group) : Action Group := do
  Permissions.validate g.permissions
  let g ← Action.change (·.createGroup g)
  Action.log (.groupCreated g.name)
  return g

/-- Updates a group. -/
def update (name : String) (u : GroupUpdate) : Action Group := do
  match u.permissions with
  | some ps => Permissions.validate ps
  | none => pure ()
  let g ← Action.change (·.updateGroup name u)
  Action.log (.groupUpdated name)
  return g

/-- Whether a count says that a group has users. -/
def inUse (counts : OrderedMap String Nat) (name : String) : Bool :=
  0 < (counts.get? name).getD 0

/-- Deletes the groups without users; the others are reported. The answer is how many were
deleted. -/
def delete (names : List String) : Action Nat := do
  let counts ← Action.query (·.countUsers names)
  let used := names.filter (inUse counts)
  let free := names.filter fun name => !inUse counts name
  let deleted ← Action.change (·.deleteGroups free)
  Action.log (.groupsDeleted deleted used.length)
  if used.isEmpty then return deleted else Action.reject (.groupsHaveUser used)

end AuthCore.Groups
