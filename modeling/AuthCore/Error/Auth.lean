/-!
# Domain errors

What can be wrong with a credential, an account, a one-time code or an input. Each error has a kind,
a code for machines, a text for people, details, and a status for the transport.
-/

namespace AuthCore

/-- The coarse kind of a domain error. -/
inductive AuthErrorKind where
  /-- The credential could not be accepted. -/
  | authentication
  /-- The credential is fine but does not grant enough. -/
  | authorization
  /-- The state of the account forbids the operation. -/
  | userState
  /-- The life cycle of a one-time code. -/
  | otp
  /-- Rejected input. -/
  | validation
  deriving DecidableEq, Repr

/-- The name of a kind. -/
def AuthErrorKind.name : AuthErrorKind → String
  | .authentication => "authentication"
  | .authorization => "authorization"
  | .userState => "user_state"
  | .otp => "otp"
  | .validation => "validation"

/-- A domain error. -/
inductive AuthError where
  | invalidTokenProvided
  | tokenExpired
  | refreshTokenExpired
  | limitedToken
  | permissionDenied (entity rule : String)
  | accessDenied
  | userNotFound
  | userIsDisabled
  | userIsBlocked
  | userIsPending
  | userIsRejected
  | userForceLogin
  | emailNotVerified (username : String)
  | phoneNotVerified (username : String)
  | oldPasswordNotMatch
  | oldPasswordRequired
  | otpExists
  | otpExpiredOrInvalid
  | invalidUsername (raw : String)
  | unknownEntity (name : String)
  | invalidRules (entity : String) (rules : List String)
  | groupNotFound (name : String)
  | groupExists (name : String)
  | groupsHaveUser (groups : List String)
  | socialLoginNotAcceptable
  deriving DecidableEq, Repr

namespace AuthError

/-- The errors that name nothing in particular. -/
def plain : List AuthError :=
  [invalidTokenProvided, tokenExpired, refreshTokenExpired, limitedToken, accessDenied,
   userNotFound, userIsDisabled, userIsBlocked, userIsPending, userIsRejected, userForceLogin,
   oldPasswordNotMatch, oldPasswordRequired, otpExists, otpExpiredOrInvalid,
   socialLoginNotAcceptable]

/-- The errors that name one thing. -/
def about : List (String → AuthError) :=
  [emailNotVerified, phoneNotVerified, invalidUsername, unknownEntity, groupNotFound, groupExists]

/-- The kind of an error. -/
def kind : AuthError → AuthErrorKind
  | invalidTokenProvided | tokenExpired | refreshTokenExpired | limitedToken
  | socialLoginNotAcceptable => .authentication
  | permissionDenied _ _ | accessDenied => .authorization
  | userNotFound | userIsDisabled | userIsBlocked | userIsPending | userIsRejected
  | userForceLogin | emailNotVerified _ | phoneNotVerified _ => .userState
  | otpExists | otpExpiredOrInvalid => .otp
  | oldPasswordNotMatch | oldPasswordRequired | invalidUsername _ | unknownEntity _
  | invalidRules _ _ | groupNotFound _ | groupExists _ | groupsHaveUser _ => .validation

/-- The code of an error, which never changes. -/
def code : AuthError → String
  | invalidTokenProvided => "invalid_token"
  | tokenExpired => "access_token_expired"
  | refreshTokenExpired => "refresh_token_expired"
  | limitedToken => "limited_token"
  | permissionDenied _ _ => "permission_denied"
  | accessDenied => "access_denied"
  | userNotFound => "user_not_found"
  | userIsDisabled => "user_is_disabled"
  | userIsBlocked => "user_is_blocked"
  | userIsPending => "user_is_pending"
  | userIsRejected => "user_is_rejected"
  | userForceLogin => "is_force_login"
  | emailNotVerified _ => "email_not_verified"
  | phoneNotVerified _ => "phone_not_verified"
  | oldPasswordNotMatch => "old_password_not_match"
  | oldPasswordRequired => "old_password_required"
  | otpExists => "otp_exists"
  | otpExpiredOrInvalid => "otp_expired"
  | invalidUsername _ => "invalid_username"
  | unknownEntity _ => "unknown_entity"
  | invalidRules _ _ => "invalid_rules"
  | groupNotFound _ => "group_not_found"
  | groupExists _ => "group_exists"
  | groupsHaveUser _ => "groups_have_user"
  | socialLoginNotAcceptable => "social_login_failed"

/-- The text of an error. -/
def message : AuthError → String
  | invalidTokenProvided => "Invalid token provided"
  | tokenExpired => "Access token expired"
  | refreshTokenExpired => "Refresh token expired"
  | limitedToken => "Limited token can only be used to change the password"
  | permissionDenied _ _ => "Permission denied"
  | accessDenied => "Access denied"
  | userNotFound => "User not found"
  | userIsDisabled => "User is disabled"
  | userIsBlocked => "User is blocked"
  | userIsPending => "User is pending approval"
  | userIsRejected => "User is rejected"
  | userForceLogin => "User must login again"
  | emailNotVerified _ => "Email is not verified"
  | phoneNotVerified _ => "Phone number is not verified"
  | oldPasswordNotMatch => "Old password does not match"
  | oldPasswordRequired => "Old password is required"
  | otpExists => "An OTP has already been sent, please wait before requesting another one"
  | otpExpiredOrInvalid => "OTP expired or invalid"
  | invalidUsername raw => "Invalid username: " ++ raw
  | unknownEntity name => "Unknown entity: " ++ name
  | invalidRules entity _ => "Invalid rules for entity " ++ entity
  | groupNotFound name => "Group not found: " ++ name
  | groupExists name => "Group already exists: " ++ name
  | groupsHaveUser _ => "Some groups still have users"
  | socialLoginNotAcceptable => "Social login failed"

/-- What an error is about, such as the offending rules. -/
def detail : AuthError → List String
  | permissionDenied entity rule => [entity ++ ":" ++ rule]
  | emailNotVerified name | phoneNotVerified name | invalidUsername name | unknownEntity name
  | groupNotFound name | groupExists name => [name]
  | invalidRules _ rules => rules
  | groupsHaveUser groups => groups
  | _ => []

/-- The status of an error at the transport. -/
def status (e : AuthError) : Nat :=
  match e with
  | userNotFound | otpExpiredOrInvalid | groupNotFound _ => 404
  | groupExists _ => 409
  | otpExists | socialLoginNotAcceptable => 406
  | groupsHaveUser _ => 400
  | _ =>
    match e.kind with
    | .authentication => 401
    | .authorization | .userState => 403
    | .otp => 400
    | .validation => 422

end AuthError

end AuthCore
