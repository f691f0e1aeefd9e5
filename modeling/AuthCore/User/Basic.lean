import AuthCore.Permission.Group
import AuthCore.Role
import AuthCore.Time.Timestamp
import AuthCore.Username

/-!
# Users

The record of an account, what is needed to create one, and partial updates of it.
-/

namespace AuthCore

/-- Where an account stands in its review. -/
inductive UserStatus where
  | pending
  | justJoined
  | joinedClub
  | confirmed
  | rejected
  deriving DecidableEq, Repr

instance : Inhabited UserStatus := ⟨.justJoined⟩

namespace UserStatus

/-- The written name of a status. -/
def name : UserStatus → String
  | pending => "pending"
  | justJoined => "just_joined"
  | joinedClub => "joined_club"
  | confirmed => "confirmed"
  | rejected => "rejected"

/-- The status with a name. -/
def ofName? : String → Option UserStatus
  | "pending" => some pending
  | "just_joined" => some justJoined
  | "joined_club" => some joinedClub
  | "confirmed" => some confirmed
  | "rejected" => some rejected
  | _ => none

/-- The written form. -/
def toJson (s : UserStatus) : Json := .string s.name

/-- Reads the written form. -/
def ofJson? : Json → Option UserStatus := Json.variant? ofName?

end UserStatus

/-- How an account came to be. -/
inductive LoginType where
  | direct
  | social
  deriving DecidableEq, Repr

instance : Inhabited LoginType := ⟨.direct⟩

namespace LoginType

/-- The written name of a login type. -/
def name : LoginType → String
  | direct => "direct"
  | social => "social"

/-- The login type with a name. -/
def ofName? : String → Option LoginType
  | "direct" => some direct
  | "social" => some social
  | _ => none

/-- The written form. -/
def toJson (t : LoginType) : Json := .string t.name

/-- Reads the written form. -/
def ofJson? : Json → Option LoginType := Json.variant? ofName?

end LoginType

/-- The record of an account. -/
structure User where
  /-- The number of the account. -/
  id : Int
  /-- The e-mail address. -/
  email : Option String
  /-- The phone number. -/
  mobileNumber : Option String
  /-- The hash of the password. -/
  hashedPassword : Option String
  /-- The first name. -/
  firstName : Option String
  /-- The last name. -/
  lastName : Option String
  /-- The address of a picture. -/
  avatar : Option String
  /-- The role. -/
  role : Role
  /-- The names of the groups the user is in. -/
  groups : List String
  /-- What the user is granted directly. -/
  permissions : List Permission
  /-- Whether the account may be used at all. -/
  isEnable : Bool
  /-- Whether the account is blocked. -/
  isBlocked : Bool
  /-- Whether the user was signed out and has to sign in again. -/
  isForceLogin : Bool
  /-- Whether the user has to change the password. -/
  isForceChangePassword : Bool
  /-- Whether the user proved to own the e-mail address. -/
  emailVerified : Bool
  /-- Whether the user proved to own the phone number. -/
  phoneVerified : Bool
  /-- The state of the review. -/
  userStatus : UserStatus
  /-- How the account came to be. -/
  loginType : LoginType
  /-- When the user last signed in. -/
  loginDatetime : Option Timestamp
  /-- When the user signed in before that. -/
  lastLoginDatetime : Option Timestamp
  deriving DecidableEq

namespace User

/-- Whether an account has a username. -/
def hasUsername (u : User) : Username → Bool
  | .email e => u.email == some e
  | .phone p => u.mobileNumber == some p

/-- The name to greet a user with. -/
def displayName (u : User) : Option String := u.firstName.filter (!·.isEmpty)

/-- The names of the fields, in order. -/
def fieldNames : List String :=
  ["id", "email", "mobile_number", "hashed_password", "first_name", "last_name", "avatar", "role",
   "groups", "permissions", "is_enable", "is_blocked", "is_force_login", "is_force_change_password",
   "email_verified", "phone_verified", "user_status", "login_type", "login_datetime",
   "last_login_datetime"]

/-- The written form, which keeps the hash of the password to itself. -/
def toJson (u : User) : Json :=
  let time := Json.orNull fun t : Timestamp => .string t.text
  .object
    [("id", .int u.id), ("email", .stringOrNull u.email),
     ("mobile_number", .stringOrNull u.mobileNumber), ("first_name", .stringOrNull u.firstName),
     ("last_name", .stringOrNull u.lastName), ("avatar", .stringOrNull u.avatar),
     ("role", u.role.toJson), ("groups", .strings u.groups),
     ("permissions", .array (u.permissions.map Permission.toJson)), ("is_enable", .bool u.isEnable),
     ("is_blocked", .bool u.isBlocked), ("is_force_login", .bool u.isForceLogin),
     ("is_force_change_password", .bool u.isForceChangePassword),
     ("email_verified", .bool u.emailVerified), ("phone_verified", .bool u.phoneVerified),
     ("user_status", u.userStatus.toJson), ("login_type", u.loginType.toJson),
     ("login_datetime", time u.loginDatetime), ("last_login_datetime", time u.lastLoginDatetime)]

/-- Reads a point in time from its text. -/
def timestamp? (j : Json) : Option Timestamp := j.string?.bind Timestamp.ofText?

/-- Reads the written form. -/
def ofJson? (j : Json) : Option User := do
  let fs ← j.fields? fieldNames
  return {
    id := ← fs.need "id" (Json.signed? 32)
    email := ← fs.maybe "email" Json.string?
    mobileNumber := ← fs.maybe "mobile_number" Json.string?
    hashedPassword := ← fs.maybe "hashed_password" Json.string?
    firstName := ← fs.maybe "first_name" Json.string?
    lastName := ← fs.maybe "last_name" Json.string?
    avatar := ← fs.maybe "avatar" Json.string?
    role := ← fs.need "role" Role.ofJson?
    groups := ← fs.need "groups" (Json.list? Json.string?)
    permissions := ← fs.need "permissions" (Json.list? Permission.ofJson?)
    isEnable := ← fs.need "is_enable" Json.bool?
    isBlocked := ← fs.need "is_blocked" Json.bool?
    isForceLogin := ← fs.need "is_force_login" Json.bool?
    isForceChangePassword := ← fs.need "is_force_change_password" Json.bool?
    emailVerified := ← fs.need "email_verified" Json.bool?
    phoneVerified := ← fs.need "phone_verified" Json.bool?
    userStatus := ← fs.need "user_status" UserStatus.ofJson?
    loginType := ← fs.need "login_type" LoginType.ofJson?
    loginDatetime := ← fs.maybe "login_datetime" timestamp?
    lastLoginDatetime := ← fs.maybe "last_login_datetime" timestamp? }

end User

/-- What is needed to create an account. -/
structure NewUser where
  /-- The e-mail address. -/
  email : Option String
  /-- The phone number. -/
  mobileNumber : Option String
  /-- The hash of the password. -/
  hashedPassword : Option String
  /-- The first name. -/
  firstName : Option String
  /-- The last name. -/
  lastName : Option String
  /-- The address of a picture. -/
  avatar : Option String
  /-- The role. -/
  role : Role
  /-- The names of the groups. -/
  groups : List String
  /-- What is granted directly. -/
  permissions : List Permission
  /-- Whether the e-mail address is proved. -/
  emailVerified : Bool
  /-- Whether the phone number is proved. -/
  phoneVerified : Bool
  /-- The state of the review. -/
  userStatus : UserStatus
  /-- How the account comes to be. -/
  loginType : LoginType
  deriving DecidableEq

namespace NewUser

/-- The group of every customer. -/
def customerGroup : String := "customer"

/-- A customer who registers with a username. -/
def customer (name : Username) : NewUser where
  email := match name with
    | .email e => some e
    | .phone _ => none
  mobileNumber := match name with
    | .email _ => none
    | .phone p => some p
  hashedPassword := none
  firstName := none
  lastName := none
  avatar := none
  role := .customer
  groups := [customerGroup]
  permissions := []
  emailVerified := false
  phoneVerified := false
  userStatus := .justJoined
  loginType := .direct

/-- The account that is created: enabled, not blocked, and never signed in. -/
def toUser (n : NewUser) (id : Int) : User where
  id := id
  email := n.email
  mobileNumber := n.mobileNumber
  hashedPassword := n.hashedPassword
  firstName := n.firstName
  lastName := n.lastName
  avatar := n.avatar
  role := n.role
  groups := n.groups
  permissions := n.permissions
  isEnable := true
  isBlocked := false
  isForceLogin := false
  isForceChangePassword := false
  emailVerified := n.emailVerified
  phoneVerified := n.phoneVerified
  userStatus := n.userStatus
  loginType := n.loginType
  loginDatetime := none
  lastLoginDatetime := none

end NewUser

/-- When a user signed in, and when before that. -/
structure LoginStamp where
  /-- The sign-in itself. -/
  moment : Timestamp
  /-- The one before. -/
  previous : Option Timestamp
  deriving DecidableEq, Repr

/-- A partial update of an account; what is `none` stays. -/
structure UserChanges where
  /-- The new sign-in times. -/
  login : Option LoginStamp := none
  /-- Whether the user has to sign in again. -/
  isForceLogin : Option Bool := none
  /-- Whether the user has to change the password. -/
  isForceChangePassword : Option Bool := none
  /-- Whether the e-mail address is proved. -/
  emailVerified : Option Bool := none
  /-- Whether the phone number is proved. -/
  phoneVerified : Option Bool := none
  /-- The hash of the new password. -/
  hashedPassword : Option String := none
  deriving DecidableEq, Repr

namespace UserChanges

/-- A sign-in now: the times move up and a forced sign-out ends. -/
def signIn (u : User) (now : Timestamp) : UserChanges :=
  { login := some ⟨now, u.loginDatetime⟩, isForceLogin := some false }

/-- Also marks the channel of a username as proved. -/
def verified (c : UserChanges) : Username → UserChanges
  | .email _ => { c with emailVerified := some true }
  | .phone _ => { c with phoneVerified := some true }

/-- The account after an update. -/
def apply (c : UserChanges) (u : User) : User :=
  { u with
    loginDatetime := match c.login with
      | some s => some s.moment
      | none => u.loginDatetime
    lastLoginDatetime := match c.login with
      | some s => s.previous
      | none => u.lastLoginDatetime
    isForceLogin := c.isForceLogin.getD u.isForceLogin
    isForceChangePassword := c.isForceChangePassword.getD u.isForceChangePassword
    emailVerified := c.emailVerified.getD u.emailVerified
    phoneVerified := c.phoneVerified.getD u.phoneVerified
    hashedPassword := c.hashedPassword.or u.hashedPassword }

end UserChanges

end AuthCore
