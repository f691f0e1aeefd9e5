import AuthCore.Error.Auth
import AuthCore.Json.Decode
import AuthCore.Text.Blank
import AuthCore.Text.Lowercase

/-!
# Usernames

A user signs in with an e-mail address or a phone number. `Username.parse` brings the many spellings
of one name to a single form: addresses in lower case, phone numbers without separators and with `+`
in the place of a leading `00`.
-/

namespace AuthCore

/-- An e-mail address or a phone number. -/
inductive Username where
  | email (value : String)
  | phone (value : String)
  deriving DecidableEq, Repr

namespace Username

/-- The address or number itself. -/
def value : Username → String
  | email v | phone v => v

/-- Whether a username is an e-mail address. -/
def isEmail : Username → Bool
  | email _ => true
  | phone _ => false

/-- Whether a username is a phone number. -/
def isPhone : Username → Bool
  | email _ => false
  | phone _ => true

/-- A character that an address may hold beside its `@`. -/
def isAddressChar (c : Char) : Bool := c != '@' && !Text.isBlank c

/-- The shape of an address: a local part, one `@`, and a domain with a point that is neither its
first nor its last character; no blanks. -/
def isAddress (cs : List Char) : Bool :=
  let mailbox := cs.takeWhile (· != '@')
  match cs.dropWhile (· != '@') with
  | [] => false
  | _ :: domain =>
    !mailbox.isEmpty && mailbox.all isAddressChar && domain.all isAddressChar
      && (domain.drop 1).dropLast.contains '.'

/-- The shape of a phone number: an optional `+` and 7 to 15 digits. -/
def isNumber (cs : List Char) : Bool :=
  let digits := match cs with
    | '+' :: ds => ds
    | ds => ds
  7 ≤ digits.length && digits.length ≤ 15 && digits.all fun c => '0' ≤ c && c ≤ '9'

/-- A character that may separate the digits of a phone number. -/
def isSeparator (c : Char) : Bool := c = ' ' || c = '-' || c = '(' || c = ')'

/-- Phone digits without separators, the international prefix written as `+`. -/
def compact (cs : List Char) : List Char :=
  match cs.filter fun c => !isSeparator c with
  | '0' :: '0' :: ds => '+' :: ds
  | ds => ds

/-- The username that a text spells. -/
def parse? (raw : String) : Option Username :=
  let trimmed := Text.trim raw
  if trimmed.toList.contains '@' then
    let address := Text.lower trimmed
    if isAddress address.toList then some (.email address) else none
  else
    let number := compact trimmed.toList
    if isNumber number then some (.phone (String.ofList number)) else none

/-- The username that a text spells; anything else is refused with the text as it came. -/
def parse (raw : String) : Except AuthError Username :=
  match parse? raw with
  | some u => .ok u
  | none => .error (.invalidUsername raw)

/-- The name of the kind of a username. -/
def kindName : Username → String
  | email _ => "email"
  | phone _ => "phone"

/-- The username of a kind. -/
def ofKind? : String → Option (String → Username)
  | "email" => some email
  | "phone" => some phone
  | _ => none

/-- The written form: kind and value. -/
def toJson (u : Username) : Json :=
  .object [("type", .string u.kindName), ("value", .string u.value)]

/-- Reads the written form. The value is taken as it stands. -/
def ofJson? (j : Json) : Option Username := do
  let fs ← j.fields? ["type", "value"]
  let kind ← fs.need "type" (Json.variant? ofKind?)
  let value ← fs.need "value" Json.string?
  return kind value

end Username

end AuthCore
