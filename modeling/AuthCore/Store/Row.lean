import AuthCore.Error.Basic
import AuthCore.User.Basic

/-!
# Rows

How users, groups and catalog entries are kept in tables: enumerations as text, lists and sets as
JSON, times as text without a zone. A row that someone else wrote may hold anything in its text and
JSON columns; reading it then fails.
-/

namespace AuthCore

/-- A row of the table of users. -/
structure UserRow where
  /-- The number of the account. -/
  id : Int
  /-- The e-mail address. -/
  email : Option String
  /-- The phone number. -/
  mobileNumber : Option String
  /-- The hash of the password. -/
  hashedPassword : Option String
  /-- The first name. -/
  firstName : Option String
  /-- The last name. -/
  lastName : Option String
  /-- The address of a picture. -/
  avatar : Option String
  /-- The name of the role. -/
  role : String
  /-- The names of the groups. -/
  groups : Json
  /-- What the user is granted directly. -/
  permissions : Json
  /-- Whether the account may be used at all. -/
  isEnable : Bool
  /-- Whether the account is blocked. -/
  isBlocked : Bool
  /-- Whether the user has to sign in again. -/
  isForceLogin : Bool
  /-- Whether the user has to change the password. -/
  isForceChangePassword : Bool
  /-- Whether the e-mail address is proved. -/
  emailVerified : Bool
  /-- Whether the phone number is proved. -/
  phoneVerified : Bool
  /-- The name of the state of the review. -/
  userStatus : String
  /-- The name of the way in which the account came to be. -/
  loginType : String
  /-- When the user last signed in. -/
  loginDatetime : Option String
  /-- When the user signed in before that. -/
  lastLoginDatetime : Option String
  deriving Inhabited

/-- A row of the table of groups. -/
structure GroupRow where
  /-- The unique name. -/
  name : String
  /-- A description for people. -/
  description : Option String
  /-- What members are granted. -/
  permissions : Json
  /-- Whether the group grants anything. -/
  isEnable : Bool
  deriving Inhabited

/-- A row of the rule catalog. -/
structure EntityRow where
  /-- The unique code name of the entity. -/
  codeName : String
  /-- Its rules. -/
  rules : Json
  deriving Inhabited

/-- Reads a JSON column. -/
def readColumn (f : Json → Option α) (column : String) (j : Json) : Answer α :=
  match f j with
  | some a => .ok a
  | none => .error (.serialization (.readColumn column))

/-- A value, or a fault of the database. -/
def orFault (f : DatabaseFault) : Option α → Answer α
  | some a => .ok a
  | none => .error (.database f)

/-- A list of permissions as JSON. -/
def Permission.listJson (ps : List Permission) : Json := .array (ps.map Permission.toJson)

/-- Reads a list of permissions. -/
def Permission.list? : Json → Option (List Permission) := Json.list? Permission.ofJson?

/-- Reads a time, if there is one. -/
def readTime (fault : DatabaseFault) : Option String → Answer (Option Timestamp)
  | none => .ok none
  | some s => (orFault fault (Timestamp.ofColumnText? s)).map some

namespace UserRow

/-- The row of a new user under a number. -/
def ofNew (n : NewUser) (id : Int) : UserRow where
  id := id
  email := n.email
  mobileNumber := n.mobileNumber
  hashedPassword := n.hashedPassword
  firstName := n.firstName
  lastName := n.lastName
  avatar := n.avatar
  role := n.role.name
  groups := .strings n.groups
  permissions := Permission.listJson n.permissions
  isEnable := true
  isBlocked := false
  isForceLogin := false
  isForceChangePassword := false
  emailVerified := n.emailVerified
  phoneVerified := n.phoneVerified
  userStatus := n.userStatus.name
  loginType := n.loginType.name
  loginDatetime := none
  lastLoginDatetime := none

/-- The times of a row. Whoever asks for a row reads them along with it, whether they matter then or
not; a time that cannot be read is the given fault. -/
def times (fault : DatabaseFault) (r : UserRow) :
    Answer (Option Timestamp × Option Timestamp) := do
  let login ← readTime fault r.loginDatetime
  let last ← readTime fault r.lastLoginDatetime
  return (login, last)

/-- The user that a row stands for; a time that cannot be read is the given fault. -/
def toUser (fault : DatabaseFault) (r : UserRow) : Answer User := do
  let times ← r.times fault
  let role ← orFault (.invalidRole r.id r.role) (Role.ofName? r.role)
  let userStatus ← orFault (.invalidStatus r.id r.userStatus) (UserStatus.ofName? r.userStatus)
  let loginType ← orFault (.invalidLoginType r.id r.loginType) (LoginType.ofName? r.loginType)
  let groups ← readColumn (Json.list? Json.string?) "users.groups" r.groups
  let permissions ← readColumn Permission.list? "users.permissions" r.permissions
  return {
    id := r.id
    email := r.email
    mobileNumber := r.mobileNumber
    hashedPassword := r.hashedPassword
    firstName := r.firstName
    lastName := r.lastName
    avatar := r.avatar
    role := role
    groups := groups
    permissions := permissions
    isEnable := r.isEnable
    isBlocked := r.isBlocked
    isForceLogin := r.isForceLogin
    isForceChangePassword := r.isForceChangePassword
    emailVerified := r.emailVerified
    phoneVerified := r.phoneVerified
    userStatus := userStatus
    loginType := loginType
    loginDatetime := times.1
    lastLoginDatetime := times.2 }

/-- The row after an update. -/
def update (c : UserChanges) (r : UserRow) : UserRow :=
  { r with
    loginDatetime := match c.login with
      | some s => some s.moment.columnText
      | none => r.loginDatetime
    lastLoginDatetime := match c.login with
      | some s => s.previous.map Timestamp.columnText
      | none => r.lastLoginDatetime
    isForceLogin := c.isForceLogin.getD r.isForceLogin
    isForceChangePassword := c.isForceChangePassword.getD r.isForceChangePassword
    emailVerified := c.emailVerified.getD r.emailVerified
    phoneVerified := c.phoneVerified.getD r.phoneVerified
    hashedPassword := c.hashedPassword.or r.hashedPassword }

/-- Whether two rows cannot stand in one table: a number, address or phone number is the same. -/
def clashes (r s : UserRow) : Bool :=
  r.id == s.id || (r.email.isSome && r.email == s.email)
    || (r.mobileNumber.isSome && r.mobileNumber == s.mobileNumber)

/-- Whether a row has a username. -/
def hasUsername (r : UserRow) : Username → Bool
  | .email e => r.email == some e
  | .phone p => r.mobileNumber == some p

/-- Whether a filter lets the role of a row pass. -/
def hasRole (roles : Option (List Role)) (r : UserRow) : Bool :=
  match roles with
  | none => true
  | some roles => (roles.map Role.name).contains r.role

end UserRow

namespace GroupRow

/-- The row of a group. -/
def ofGroup (g : Group) : GroupRow :=
  ⟨g.name, g.description, Permission.listJson g.permissions, g.isEnable⟩

/-- The group that a row stands for. -/
def toGroup (r : GroupRow) : Answer Group :=
  (readColumn Permission.list? "groups.permissions" r.permissions).map fun ps =>
    ⟨r.name, r.description, ps, r.isEnable⟩

/-- The row after an update. -/
def update (u : GroupUpdate) (r : GroupRow) : GroupRow :=
  { r with
    description := u.description.or r.description
    permissions := match u.permissions with
      | some ps => Permission.listJson ps
      | none => r.permissions
    isEnable := u.isEnable.getD r.isEnable }

end GroupRow

namespace EntityRow

/-- The row of a catalog entry. -/
def ofRules (e : EntityRules) : EntityRow := ⟨e.codeName, e.validRules.toJson⟩

/-- The catalog entry that a row stands for. -/
def toRules (r : EntityRow) : Answer EntityRules :=
  (readColumn RuleSet.ofJson? "entities.rules" r.rules).map fun rules => ⟨r.codeName, rules⟩

end EntityRow

end AuthCore
