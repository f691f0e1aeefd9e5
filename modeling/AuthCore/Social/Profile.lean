import AuthCore.Json.Decode
import AuthCore.Text.Blank
import AuthCore.Text.Lowercase

/-!
# Social profiles

What an identity provider tells about a person, and the one form of an e-mail address.
-/

namespace AuthCore

/-- What an identity provider tells about a person. -/
structure SocialProfile where
  /-- The e-mail address. -/
  email : Option String
  /-- The first name. -/
  firstName : Option String
  /-- The last name. -/
  lastName : Option String
  /-- The address of a picture. -/
  avatar : Option String
  /-- Whether the provider has checked the e-mail address. -/
  emailVerified : Bool
  deriving DecidableEq, Repr

namespace SocialProfile

/-- The one form of an address: without blanks around it and in lower case. An address of blanks
alone is none. -/
def normalEmail (email : Option String) : Option String :=
  (email.map fun e => Text.lower (Text.trim e)).filter fun e => e != ""

/-- The written form. -/
def toJson (p : SocialProfile) : Json :=
  .object
    [("email", .stringOrNull p.email), ("first_name", .stringOrNull p.firstName),
     ("last_name", .stringOrNull p.lastName), ("avatar", .stringOrNull p.avatar),
     ("email_verified", .bool p.emailVerified)]

/-- Reads the written form. -/
def ofJson? (j : Json) : Option SocialProfile := do
  let fs ← j.fields? ["email", "first_name", "last_name", "avatar", "email_verified"]
  return {
    email := ← fs.maybe "email" Json.string?
    firstName := ← fs.maybe "first_name" Json.string?
    lastName := ← fs.maybe "last_name" Json.string?
    avatar := ← fs.maybe "avatar" Json.string?
    emailVerified := ← fs.need "email_verified" Json.bool? }

end SocialProfile

end AuthCore
