import AuthCore.Otp.Codes
import AuthCore.Password
import AuthCore.Permission.Resolver
import AuthCore.Social.Provider
import AuthCore.Token.Issue

/-!
# Accounts

Signing in with a password, a one-time code or the account of another service, signing out, changing
the password, and finding out who presents a token.

Every full sign-in ends in `Accounts.complete`: it notes the time, ends a forced sign-out and
issues a pair of tokens.
-/

namespace AuthCore

/-- What the operations on accounts depend on. -/
structure Accounts where
  /-- What issues tokens. -/
  tokens : Tokens
  /-- One-time codes. -/
  otp : OtpConfig
  /-- The cost of a password hash. -/
  hashCost : Nat
  /-- The length of a password that is made up. -/
  passwordLength : Nat

namespace Accounts

/-- What a configuration asks for. -/
def ofConfig (c : Config) : Except ConfigFault Accounts :=
  (Tokens.ofConfig c.jwt).map fun t =>
    ⟨t, c.otp, c.security.bcryptCost, c.security.randomPasswordLength⟩

/-! ### Parts of the flows -/

/-- Whether a password has a hash that may be missing. -/
def passwordFits (password : String) (hash : Option String) : Bool :=
  hash.any (Password.verify password)

/-- Hashes a password. -/
def hashPassword (a : Accounts) (password : String) : Action String := do
  let m ← read
  Action.ofAnswer ((Password.hash a.hashCost m.salt password).mapError .internal)

/-- The user with a username, who has to exist. -/
def needUser (u : Username) : Action User := do
  Action.orReject .userNotFound (← Action.query (·.findByUsername u none))

/-- The user with a number, who has to exist. -/
def needUserById (id : Int) : Action User := do
  Action.orReject .userNotFound (← Action.query (·.findById id))

/-- Checks that an account is enabled. -/
def requireEnabled (u : User) : Action Unit := Action.require u.isEnable .userIsDisabled

/-- Checks that an account is not blocked. -/
def requireUnblocked (u : User) : Action Unit := Action.require (!u.isBlocked) .userIsBlocked

/-- What a full sign-in changes, next to some further changes. -/
def signInChanges (u : User) (extra : UserChanges) (m : Moment) : UserChanges :=
  { UserChanges.signIn u m.timestamp with
    emailVerified := extra.emailVerified
    phoneVerified := extra.phoneVerified
    hashedPassword := extra.hashedPassword
    isForceChangePassword := extra.isForceChangePassword }

/-- Completes a full sign-in. -/
def complete (a : Accounts) (u : User) (extra : UserChanges) : Action TokenPair := do
  let m ← read
  let u ← Action.change (·.updateUser u.id (signInChanges u extra m))
  let pair ← a.tokens.issue u.id u.role false
  Action.log (.signedIn u.id)
  return pair

/-! ### Signing in -/

/-- What is missing for a sign-in over the channel of a username. -/
def unverified? (name : Username) (u : User) : Option AuthError :=
  match name with
  | .email value => if u.emailVerified then none else some (.emailNotVerified value)
  | .phone value => if u.phoneVerified then none else some (.phoneNotVerified value)

/-- Signs in with a password. -/
def signInWithPassword (a : Accounts) (name : Username) (password : String)
    (roles : Option (List Role)) : Action TokenPair := do
  let u ← Action.orReject .userNotFound (← Action.query (·.findByUsername name roles))
  if !passwordFits password u.hashedPassword then
    Action.log (.passwordMismatch name.value)
    Action.reject .userNotFound
  requireEnabled u
  match unverified? name u with
  | some e => Action.reject e
  | none => a.complete u {}

/-- A customer who has just proved to own a username. -/
def provedCustomer (name : Username) : NewUser :=
  { NewUser.customer name with emailVerified := name.isEmail, phoneVerified := name.isPhone }

/-- The user with a username, who is registered if there is none. -/
def findOrRegister (name : Username) : Action User := do
  match ← Action.query (·.findByUsername name none) with
  | some u =>
    requireEnabled u
    requireUnblocked u
    return u
  | none =>
    let u ← Action.change (·.createUser (provedCustomer name))
    Action.log (.registered u.id name.value)
    return u

/-- Signs in with a one-time code; who is unknown is registered as a customer. -/
def signInWithCode (a : Accounts) (name : Username) (code : String) : Action TokenPair := do
  Otp.verify a.otp name code
  let u ← findOrRegister name
  a.complete u (UserChanges.verified {} name)

/-- A customer whom another service has told about. -/
def socialCustomer (p : SocialProfile) (email hash : String) : NewUser where
  email := some email
  mobileNumber := none
  hashedPassword := some hash
  firstName := p.firstName
  lastName := p.lastName
  avatar := p.avatar
  role := .customer
  groups := [NewUser.customerGroup]
  permissions := []
  emailVerified := p.emailVerified
  phoneVerified := false
  userStatus := .justJoined
  loginType := .social

/-- The user with the address of a profile, who is created if there is none. -/
def findOrCreate (a : Accounts) (p : SocialProfile) (email : String) : Action User := do
  match ← Action.query (·.findByEmail email) with
  | some u => return u
  | none =>
    let password := (← read).password a.passwordLength
    let hash ← a.hashPassword password
    Action.change (·.createUser (socialCustomer p email hash))

/-- What keeps a user in review from signing in. -/
def inReview? (u : User) : Option AuthError :=
  match u.userStatus with
  | .pending => some .userIsPending
  | .rejected => some .userIsRejected
  | _ => none

/-- The address that a user with a profile is looked for by: without blanks around it, unless
nothing is left, and in lower case. -/
def profileEmail (p : SocialProfile) : Option String :=
  ((p.email.map Text.trim).filter fun e => e != "").map Text.lower

/-- Signs in with the profile of another service. -/
def signInWithProfile (a : Accounts) (p : SocialProfile) : Action TokenPair := do
  let email ← Action.orReject .socialLoginNotAcceptable (profileEmail p)
  let u ← a.findOrCreate p email
  requireEnabled u
  requireUnblocked u
  match inReview? u with
  | some e => Action.reject e
  | none => a.complete u { emailVerified := if p.emailVerified then some true else none }

/-- Signs in with a code of another service. -/
def signInWithProvider (a : Accounts) (provider : IdentityProvider) (code : String) :
    Action TokenPair := do
  let p ← provider.exchangeCode code
  Action.log (.profileReceived provider.name)
  a.signInWithProfile p

/-! ### Signing out and changing the password -/

/-- Forces a user to sign in again; only administrators can do that to others. -/
def signOut (actor : User) (target : Option Int) : Action Bool := do
  let target := target.getD actor.id
  Action.require (target == actor.id || actor.role == .admin) .accessDenied
  let u ← Action.change (·.updateUser target { isForceLogin := some true })
  Action.log (.signedOut target actor.id)
  return u.isForceLogin

/-- Checks the old password. -/
def requireOldPassword (u : User) (old : Option String) : Action Unit := do
  let old ← Action.orReject .oldPasswordRequired old
  Action.require (passwordFits old u.hashedPassword) .oldPasswordNotMatch

/-- Changes the password. Who comes with a limited token need not know the old one and is signed
in. -/
def changePassword (a : Accounts) (u : User) (old : Option String) (new : String)
    (limited : Bool) : Action (Option TokenPair) := do
  if !limited then requireOldPassword u old
  let hash ← a.hashPassword new
  let changes : UserChanges :=
    { hashedPassword := some hash, isForceChangePassword := some false, isForceLogin := some false }
  if limited then return some (← a.complete u changes)
  else
    let _ ← Action.change (·.updateUser u.id changes)
    Action.log (.passwordChanged u.id)
    return none

/-! ### One-time codes for users -/

/-- Requests a code for signing in; the user need not exist. -/
def requestSignInCode (a : Accounts) (name : Username) : Action Unit := do
  let u ← Action.query (·.findByUsername name none)
  Otp.request a.otp name .verification (u.bind User.displayName)

/-- Requests a code for a new password; the user has to exist. -/
def requestResetCode (a : Accounts) (name : Username) : Action Unit := do
  let u ← needUser name
  Otp.request a.otp name .resetPassword u.displayName

/-- Signs in an existing user with a one-time code. -/
def verifyCode (a : Accounts) (name : Username) (code : String) : Action TokenPair := do
  let u ← needUser name
  Otp.verify a.otp name code
  a.complete u (UserChanges.verified {} name)

/-- Exchanges a one-time code for a token that may only change the password. -/
def verifyResetCode (a : Accounts) (name : Username) (code : String) : Action String := do
  let u ← needUser name
  Otp.verify a.otp name code
  a.tokens.issueLimited u.id u.role

/-! ### Who presents a token -/

/-- What keeps a user from using an access token. -/
def inactive? (u : User) : Option AuthError :=
  if u.isForceLogin then some .userForceLogin
  else if !u.isEnable then some .userIsDisabled
  else if u.isBlocked then some .userIsBlocked
  else
    match u.email.filter fun _ => !u.emailVerified with
    | some email => some (.emailNotVerified email)
    | none => (u.mobileNumber.filter fun _ => !u.phoneVerified).map .phoneNotVerified

/-- The user with a number, who has to be active. -/
def needActiveUser (id : Int) : Action User := do
  let u ← needUserById id
  match inactive? u with
  | some e => Action.reject e
  | none => return u

/-- The user who presents an access token that is not limited. -/
def authenticate (a : Accounts) (token : String) : Action User := do
  let c ← a.tokens.verify token
  Action.require (!c.limited) .limitedToken
  needActiveUser c.userId

/-- The user who presents any access token, and whether it is limited. Who comes with a limited
token only has to be enabled and not blocked. -/
def authenticateLimited (a : Accounts) (token : String) : Action (User × Bool) := do
  let c ← a.tokens.verify token
  if !c.limited then return (← needActiveUser c.userId, false)
  let u ← needUserById c.userId
  requireEnabled u
  requireUnblocked u
  return (u, true)

/-- Checks that a user is staff and may do something. -/
def authorizeStaff (u : User) (scope : Option Scope) : Action Unit := do
  Action.require u.role.isStaff .accessDenied
  Permissions.check u scope

end Accounts

end AuthCore
