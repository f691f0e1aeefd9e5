import AuthCore.Config.Basic
import AuthCore.Text.Replace

/-!
# Messages with one-time codes

How a one-time code is worded for its recipient: a short message from the configured template, or an
e-mail with a greeting and a subject that depends on what the code is for.
-/

namespace AuthCore

/-- What a one-time code is for. -/
inductive OtpPurpose where
  | verification
  | resetPassword
  deriving DecidableEq, Repr

instance : Inhabited OtpPurpose := ⟨.verification⟩

namespace OtpPurpose

/-- The written name. -/
def name : OtpPurpose → String
  | verification => "verification"
  | resetPassword => "reset_password"

/-- The name in log messages. -/
def title : OtpPurpose → String
  | verification => "Verification"
  | resetPassword => "ResetPassword"

/-- The purpose with a name. -/
def ofName? : String → Option OtpPurpose
  | "verification" => some verification
  | "reset_password" => some resetPassword
  | _ => none

/-- The written form. -/
def toJson (p : OtpPurpose) : Json := .string p.name

/-- Reads the written form. -/
def ofJson? : Json → Option OtpPurpose := Json.variant? ofName?

end OtpPurpose

/-- A message to a user. -/
inductive Message where
  /-- A short message to a phone. -/
  | sms (body : String)
  /-- An e-mail. -/
  | email (subject body : String)
  deriving DecidableEq, Repr

namespace OtpConfig

/-- The place for the code in the template of a short message. -/
def codePlace : String := "\x7bcode\x7d"

/-- The short message with a code. -/
def sms (c : OtpConfig) (code : String) : Message :=
  .sms (Text.replace c.smsTemplate codePlace code)

/-- The subject of an e-mail for a purpose. -/
def subject (c : OtpConfig) : OtpPurpose → String
  | .verification => c.emailSubjectVerification
  | .resetPassword => c.emailSubjectResetPassword

/-- The first line of an e-mail. -/
def greeting : Option String → String
  | some name => "Hello " ++ name ++ ","
  | none => "Hello,"

/-- The e-mail with a code to a person whose name may be known. -/
def email (c : OtpConfig) (code : String) (purpose : OtpPurpose) (name : Option String) : Message :=
  .email (c.subject purpose) (greeting name ++ "\n\nYour code is " ++ code ++ ".\n")

end OtpConfig

end AuthCore
