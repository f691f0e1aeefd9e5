import AuthCore.Notify.Delivery
import AuthCore.Social.Profile

/-!
# Identity providers

An identity provider turns a code or a token into a profile that it has checked. Google says whether
an address is verified, sometimes as a text; an address from Facebook always counts as verified.
-/

namespace AuthCore

/-- An identity provider. -/
structure IdentityProvider where
  /-- The name. -/
  name : String
  /-- The profile that a code stands for. -/
  exchangeCode : String → Action SocialProfile
  /-- The profile that a token stands for. -/
  profileFromToken : String → Action SocialProfile

namespace IdentityProvider

/-- An address of the configuration, which has to be absolute. -/
def address (url : String) : Action String :=
  if Address.isAbsolute url then pure url else throw (.config (.invalidUrl url))

/-- Sends a request and reads the document that comes back. -/
def fetch (provider : String) (f : Json → Option α) (r : Request) : Action α := do
  let response ← Action.fetch r
  if response.isSuccess then
    match (Json.ofText? response.body).bind f with
    | some a => return a
    | none => throw (.network .failed)
  else throw (.network (.providerStatus provider (Status.text response.status)))

/-- Reads the token that a code was exchanged for. -/
def accessToken? (j : Json) : Option String := do
  let fs ← j.fields? ["access_token"]
  fs.need "access_token" Json.string?

end IdentityProvider

namespace Google

/-- The name of the provider. -/
def name : String := "google"

/-- What the provider tells about a person. -/
structure Profile where
  /-- The e-mail address. -/
  email : Option String
  /-- Whether it is verified. -/
  emailVerified : Bool
  /-- The first name. -/
  givenName : Option String
  /-- The last name. -/
  familyName : Option String
  /-- The address of a picture. -/
  picture : Option String
  /-- For whom an identity token was made. -/
  audience : Option String

/-- A truth value, or its name in any case; any other text is false, and so is `null`. -/
def flag? : Json → Option Bool
  | .bool b => some b
  | .string s => some (s.toList.map Char.toLower == "true".toList)
  | .null => some false
  | _ => none

namespace Profile

/-- Reads what the provider answers. -/
def ofJson? (j : Json) : Option Profile := do
  let fs ← j.fields? ["email", "email_verified", "given_name", "family_name", "picture", "aud"]
  return {
    email := ← fs.maybe "email" Json.string?
    emailVerified := ← fs.getD "email_verified" flag? false
    givenName := ← fs.maybe "given_name" Json.string?
    familyName := ← fs.maybe "family_name" Json.string?
    picture := ← fs.maybe "picture" Json.string?
    audience := ← fs.maybe "aud" Json.string? }

/-- The profile in the common form. -/
def toSocial (p : Profile) : SocialProfile where
  email := SocialProfile.normalEmail p.email
  firstName := p.givenName
  lastName := p.familyName
  avatar := p.picture
  emailVerified := p.emailVerified

end Profile

/-- The profile behind an access token. -/
def userinfo (c : GoogleConfig) (token : String) : Action SocialProfile := do
  let url ← IdentityProvider.address c.userinfoUrl
  let p ← IdentityProvider.fetch name Profile.ofJson?
    { Request.get url [] with bearer := some token }
  return p.toSocial

/-- The profile that a code stands for. -/
def exchangeCode (c : GoogleConfig) (code : String) : Action SocialProfile := do
  let url ← IdentityProvider.address c.tokenUrl
  let token ← IdentityProvider.fetch name IdentityProvider.accessToken?
    (.post url (.form
      [("code", code), ("client_id", c.clientId), ("client_secret", c.clientSecret),
       ("redirect_uri", c.redirectUri), ("grant_type", "authorization_code")]))
  Action.log .codeExchanged
  userinfo c token

/-- The profile in an identity token, which has to be made for this application if that has an
identity. -/
def profileFromToken (c : GoogleConfig) (token : String) : Action SocialProfile := do
  let url ← IdentityProvider.address c.tokeninfoUrl
  let p ← IdentityProvider.fetch name Profile.ofJson? (.get url [("id_token", token)])
  if c.clientId ≠ "" && p.audience ≠ some c.clientId then throw (.network .audience)
  return p.toSocial

/-- The provider. -/
def provider (c : GoogleConfig) : IdentityProvider :=
  ⟨name, exchangeCode c, profileFromToken c⟩

end Google

namespace Facebook

/-- The name of the provider. -/
def name : String := "facebook"

/-- What the provider tells about a person. -/
structure Profile where
  /-- The e-mail address. -/
  email : Option String
  /-- The first name. -/
  firstName : Option String
  /-- The last name. -/
  lastName : Option String
  /-- The address of a picture. -/
  picture : Option String

namespace Profile

/-- Reads the address inside a picture. -/
def picture? (j : Json) : Option (Option String) := do
  let fs ← j.fields? ["data"]
  let data ← fs.maybe "data" fun data => do
    let fs ← data.fields? ["url"]
    fs.maybe "url" Json.string?
  return data.join

/-- Reads what the provider answers. -/
def ofJson? (j : Json) : Option Profile := do
  let fs ← j.fields? ["email", "first_name", "last_name", "picture"]
  return {
    email := ← fs.maybe "email" Json.string?
    firstName := ← fs.maybe "first_name" Json.string?
    lastName := ← fs.maybe "last_name" Json.string?
    picture := (← fs.maybe "picture" picture?).join }

/-- The profile in the common form. -/
def toSocial (p : Profile) : SocialProfile :=
  let email := SocialProfile.normalEmail p.email
  { email := email
    firstName := p.firstName
    lastName := p.lastName
    avatar := p.picture
    emailVerified := email.isSome }

end Profile

/-- An address of the service. -/
def address (c : FacebookConfig) (path : String) : Action String :=
  let base := String.ofList (c.graphUrl.toList.reverse.dropWhile (· == '/')).reverse
  IdentityProvider.address (base ++ "/" ++ path)

/-- The profile behind an access token. -/
def profileFromToken (c : FacebookConfig) (token : String) : Action SocialProfile := do
  let url ← address c "me"
  let p ← IdentityProvider.fetch name Profile.ofJson?
    (.get url [("fields", "id,email,first_name,last_name,picture"), ("access_token", token)])
  return p.toSocial

/-- The profile that a code stands for. -/
def exchangeCode (c : FacebookConfig) (code : String) : Action SocialProfile := do
  let url ← address c "oauth/access_token"
  let token ← IdentityProvider.fetch name IdentityProvider.accessToken?
    (.get url
      [("client_id", c.clientId), ("client_secret", c.clientSecret),
       ("redirect_uri", c.redirectUri), ("code", code)])
  profileFromToken c token

/-- The provider. -/
def provider (c : FacebookConfig) : IdentityProvider :=
  ⟨name, exchangeCode c, profileFromToken c⟩

end Facebook

end AuthCore
