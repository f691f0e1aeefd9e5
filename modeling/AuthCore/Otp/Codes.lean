import AuthCore.Cache.Key
import AuthCore.Notify.Delivery

/-!
# One-time codes

A username has at most one live code. The cache keeps it with the number of wrong guesses, under a
key made of the username. A right guess takes the code away; after too many wrong ones the code is
locked until it expires. In the test mode the code is fixed and nothing is delivered.
-/

namespace AuthCore.Otp

/-- The field that holds the code. -/
def codeField : String := "code"

/-- The field that counts wrong guesses. -/
def retryField : String := "retry"

/-- The key of the code of a username. -/
def key (u : Username) : String := (CacheKey.otp u.value).text

/-- How long a code lives, in seconds. -/
def window (c : OtpConfig) : Nat := if c.testMode then c.testWindow else c.window

/-- The code for a request. -/
def code (c : OtpConfig) (m : Moment) : String :=
  if c.testMode then c.testCode else m.code c.length

/-- The message with a code, on the channel of the username. -/
def message (c : OtpConfig) (u : Username) (code : String) (purpose : OtpPurpose)
    (name : Option String) : Message :=
  match u with
  | .phone _ => c.sms code
  | .email _ => c.email code purpose name

/-- Delivers a message; a failure is only logged. -/
def deliver (recipient : String) (m : Message) : Action Unit := do
  let n := (← get).notifier
  tryCatch (n.deliver recipient m) fun e => Action.log (.deliveryFailed recipient e)

/-- Makes a code for a username and delivers it, unless the username has a live one. -/
def request (c : OtpConfig) (u : Username) (purpose : OtpPurpose) (name : Option String) :
    Action Unit := do
  let code := code c (← read)
  let created ← Action.cacheCreate (key u) [(codeField, code), (retryField, "0")]
    (seconds (window c))
  Action.require created .otpExists
  Action.log (.otpRequested u.value purpose)
  if c.testMode then return ()
  else deliver u.value (message c u code purpose name)

/-- Checks a guess at the code of a username. -/
def verify (c : OtpConfig) (u : Username) (guess : String) : Action Unit := do
  match ← Action.cached fun now =>
      Cache.check (key u) codeField guess retryField c.maxRetries now with
  | .matched => Action.log (.otpVerified u.value)
  | .mismatch n =>
    Action.log (.otpMismatch u.value n c.maxRetries)
    Action.reject .otpExpiredOrInvalid
  | .locked =>
    Action.log (.otpLocked u.value)
    Action.reject .otpExpiredOrInvalid
  | .missing => Action.reject .otpExpiredOrInvalid

end AuthCore.Otp
