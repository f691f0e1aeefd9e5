import AuthCore.Json.Printer
import AuthCore.Json.Reader
import AuthCore.Store.Database

/-!
# Databases as documents

The written form of a database: the migrations that are applied, and the rows of every table that
exists.
-/

namespace AuthCore

namespace UserRow

/-- The written form. -/
def toJson (r : UserRow) : Json :=
  .object
    [("id", .int r.id), ("email", .stringOrNull r.email),
     ("mobile_number", .stringOrNull r.mobileNumber),
     ("hashed_password", .stringOrNull r.hashedPassword), ("first_name", .stringOrNull r.firstName),
     ("last_name", .stringOrNull r.lastName), ("avatar", .stringOrNull r.avatar),
     ("role", .string r.role), ("groups", r.groups), ("permissions", r.permissions),
     ("is_enable", .bool r.isEnable), ("is_blocked", .bool r.isBlocked),
     ("is_force_login", .bool r.isForceLogin),
     ("is_force_change_password", .bool r.isForceChangePassword),
     ("email_verified", .bool r.emailVerified), ("phone_verified", .bool r.phoneVerified),
     ("user_status", .string r.userStatus), ("login_type", .string r.loginType),
     ("login_datetime", .stringOrNull r.loginDatetime),
     ("last_login_datetime", .stringOrNull r.lastLoginDatetime)]

/-- Reads the written form. -/
def ofJson? (j : Json) : Option UserRow := do
  let fs ← j.fields? User.fieldNames
  return {
    id := ← fs.need "id" (Json.signed? 32)
    email := ← fs.maybe "email" Json.string?
    mobileNumber := ← fs.maybe "mobile_number" Json.string?
    hashedPassword := ← fs.maybe "hashed_password" Json.string?
    firstName := ← fs.maybe "first_name" Json.string?
    lastName := ← fs.maybe "last_name" Json.string?
    avatar := ← fs.maybe "avatar" Json.string?
    role := ← fs.need "role" Json.string?
    groups := ← j.get? "groups"
    permissions := ← j.get? "permissions"
    isEnable := ← fs.need "is_enable" Json.bool?
    isBlocked := ← fs.need "is_blocked" Json.bool?
    isForceLogin := ← fs.need "is_force_login" Json.bool?
    isForceChangePassword := ← fs.need "is_force_change_password" Json.bool?
    emailVerified := ← fs.need "email_verified" Json.bool?
    phoneVerified := ← fs.need "phone_verified" Json.bool?
    userStatus := ← fs.need "user_status" Json.string?
    loginType := ← fs.need "login_type" Json.string?
    loginDatetime := ← fs.maybe "login_datetime" Json.string?
    lastLoginDatetime := ← fs.maybe "last_login_datetime" Json.string? }

end UserRow

namespace GroupRow

/-- The written form. -/
def toJson (r : GroupRow) : Json :=
  .object
    [("name", .string r.name), ("description", .stringOrNull r.description),
     ("permissions", r.permissions), ("is_enable", .bool r.isEnable)]

/-- Reads the written form. -/
def ofJson? (j : Json) : Option GroupRow := do
  let fs ← j.fields? ["name", "description", "permissions", "is_enable"]
  return ⟨← fs.need "name" Json.string?, ← fs.maybe "description" Json.string?,
    ← j.get? "permissions", ← fs.need "is_enable" Json.bool?⟩

end GroupRow

namespace EntityRow

/-- The written form. -/
def toJson (r : EntityRow) : Json :=
  .object [("code_name", .string r.codeName), ("rules", r.rules)]

/-- Reads the written form. -/
def ofJson? (j : Json) : Option EntityRow := do
  let fs ← j.fields? ["code_name", "rules"]
  return ⟨← fs.need "code_name" Json.string?, ← j.get? "rules"⟩

end EntityRow

namespace UserTable

/-- The written form. -/
def toJson (t : UserTable) : Json :=
  .object [("rows", .array (t.rows.map UserRow.toJson)), ("last_id", .int t.lastId)]

/-- Reads the written form. -/
def ofJson? (j : Json) : Option UserTable := do
  let fs ← j.fields? ["rows", "last_id"]
  return ⟨← fs.need "rows" (Json.list? UserRow.ofJson?), ← fs.need "last_id" (Json.signed? 64)⟩

end UserTable

namespace Migration

/-- The written name of a migration. -/
def name : Migration → String
  | usersTable => "users_table"
  | groupsTable => "groups_table"
  | entitiesTable => "entities_table"
  | defaultContents => "default_contents"

/-- The migration with a name. -/
def ofName? : String → Option Migration
  | "users_table" => some usersTable
  | "groups_table" => some groupsTable
  | "entities_table" => some entitiesTable
  | "default_contents" => some defaultContents
  | _ => none

end Migration

namespace Database

/-- The written form of what is in a database. -/
def toJson (db : Database) : Json :=
  .object
    [("applied", .strings (db.applied.map Migration.name)),
     ("users", Json.orNull UserTable.toJson db.users),
     ("groups", Json.orNull (fun rows => .array (rows.map GroupRow.toJson)) db.groups),
     ("entities", Json.orNull (fun rows => .array (rows.map EntityRow.toJson)) db.entities)]

/-- Reads the written form. -/
def ofJson? (j : Json) : Option Database := do
  let fs ← j.fields? ["applied", "users", "groups", "entities"]
  return {
    hasRecord := true
    applied := ← fs.need "applied" (Json.list? fun j => j.string?.bind Migration.ofName?)
    users := ← fs.maybe "users" UserTable.ofJson?
    groups := ← fs.maybe "groups" (Json.list? GroupRow.ofJson?)
    entities := ← fs.maybe "entities" (Json.list? EntityRow.ofJson?)
    readOnly := false }

/-- The text of a database. -/
def text (db : Database) : String := db.toJson.text

/-- Reads the text of a database. -/
def ofText? (s : String) : Option Database := (Json.ofText? s).bind ofJson?

end Database

end AuthCore
