import AuthCore.Store.Row

/-!
# Default contents

The rule catalog and the groups that a new database starts with.
-/

namespace AuthCore.Seed

/-- The rules that every entity has. -/
def defaultRules : List String := ["list", "create", "read", "update", "delete", "menu"]

/-- The rules that change nothing. -/
def readOnlyRules : List String := ["list", "read", "menu"]

/-- The entities that have the default rules and no others. -/
def defaultEntities : List String :=
  ["configs", "categories", "files", "gateways", "groups", "languages", "logs", "rules",
   "countries", "states", "cities", "keywords", "dashboards", "products", "tags", "flavors",
   "notifications", "blogs", "news", "orders", "coupons", "entities"]

/-- The rules of users. -/
def userRules : List String := defaultRules ++ ["activation", "blocking", "change_password"]

/-- Every entity with its rules. -/
def catalog : List (String × List String) :=
  (defaultEntities.map fun name => (name, defaultRules)) ++ [("users", userRules)]

/-- The catalog as rows. -/
def entityRows : List EntityRow := catalog.map fun e => ⟨e.1, .strings e.2⟩

/-- One permission as JSON. -/
def permission (e : String × List String) : Json :=
  .object [("entity", .string e.1), ("rules", .strings e.2)]

/-- What an administrator may do with an entity: everything, but the rules themselves can only be
read. -/
def adminRules (e : String × List String) : String × List String :=
  if e.1 = "rules" || e.1 = "entities" then (e.1, readOnlyRules) else e

/-- What a customer may do. -/
def customerRules : List (String × List String) :=
  [("files", ["list", "read", "menu"]), ("categories", ["list", "read"]),
   ("products", ["list", "read", "menu"])]

/-- The row of a group. -/
def groupRow (name description : String) (permissions : List (String × List String)) : GroupRow :=
  ⟨name, some description, .array (permissions.map permission), true⟩

/-- The groups as rows. -/
def groupRows : List GroupRow :=
  [groupRow "super_admin" "全部实体的全部规则" catalog,
   groupRow "admin" "后台管理员" (catalog.map adminRules),
   groupRow "customer" "注册客户" customerRules,
   groupRow "audit" "只读审计" (catalog.map fun e => (e.1, readOnlyRules))]

/-- The names by which the groups are found again. -/
def groupNames : List String := ["super_admin", "admin", "customer", "audit"]

/-- The names by which the entities are found again. -/
def entityNames : List String := catalog.map (·.1)

end AuthCore.Seed
