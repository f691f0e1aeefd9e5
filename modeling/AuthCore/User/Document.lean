import AuthCore.User.Basic

/-!
# New users and updates as documents

The written forms of what creates and what changes an account. A member that is missing takes its
default when an account is created, and leaves the account as it is when one is changed.
-/

namespace AuthCore

namespace NewUser

/-- The written form. -/
def toJson (n : NewUser) : Json :=
  .object
    [("email", .stringOrNull n.email), ("mobile_number", .stringOrNull n.mobileNumber),
     ("hashed_password", .stringOrNull n.hashedPassword), ("first_name", .stringOrNull n.firstName),
     ("last_name", .stringOrNull n.lastName), ("avatar", .stringOrNull n.avatar),
     ("role", n.role.toJson), ("groups", .strings n.groups),
     ("permissions", .array (n.permissions.map Permission.toJson)),
     ("email_verified", .bool n.emailVerified), ("phone_verified", .bool n.phoneVerified),
     ("user_status", n.userStatus.toJson), ("login_type", n.loginType.toJson)]

/-- The members of the written form. -/
def fieldNames : List String :=
  ["email", "mobile_number", "hashed_password", "first_name", "last_name", "avatar", "role",
   "groups", "permissions", "email_verified", "phone_verified", "user_status", "login_type"]

/-- Reads the written form; who is not said to be anything else is a customer. -/
def ofJson? (j : Json) : Option NewUser := do
  let fs ← j.fields? fieldNames
  return {
    email := ← fs.maybe "email" Json.string?
    mobileNumber := ← fs.maybe "mobile_number" Json.string?
    hashedPassword := ← fs.maybe "hashed_password" Json.string?
    firstName := ← fs.maybe "first_name" Json.string?
    lastName := ← fs.maybe "last_name" Json.string?
    avatar := ← fs.maybe "avatar" Json.string?
    role := (← fs.maybe "role" Role.ofJson?).getD .customer
    groups := (← fs.maybe "groups" (Json.list? Json.string?)).getD []
    permissions := (← fs.maybe "permissions" (Json.list? Permission.ofJson?)).getD []
    emailVerified := (← fs.maybe "email_verified" Json.bool?).getD false
    phoneVerified := (← fs.maybe "phone_verified" Json.bool?).getD false
    userStatus := (← fs.maybe "user_status" UserStatus.ofJson?).getD default
    loginType := (← fs.maybe "login_type" LoginType.ofJson?).getD default }

end NewUser

/-- Reads the written form of sign-in times. -/
def LoginStamp.ofJson? (j : Json) : Option LoginStamp := do
  let fs ← j.fields? ["at", "previous"]
  return ⟨← fs.need "at" User.timestamp?, ← fs.maybe "previous" User.timestamp?⟩

/-- Reads the written form of an update. -/
def UserChanges.ofJson? (j : Json) : Option UserChanges := do
  let fs ← j.fields? ["login", "is_force_login", "is_force_change_password", "email_verified",
    "phone_verified", "hashed_password"]
  return {
    login := ← fs.maybe "login" LoginStamp.ofJson?
    isForceLogin := ← fs.maybe "is_force_login" Json.bool?
    isForceChangePassword := ← fs.maybe "is_force_change_password" Json.bool?
    emailVerified := ← fs.maybe "email_verified" Json.bool?
    phoneVerified := ← fs.maybe "phone_verified" Json.bool?
    hashedPassword := ← fs.maybe "hashed_password" Json.string? }

end AuthCore
