import AuthCore.Json.Decode

/-!
# Token pairs

What a successful sign-in answers: an access token and a refresh token.
-/

namespace AuthCore

/-- An access token and a refresh token. -/
structure TokenPair where
  /-- The access token. -/
  accessToken : String
  /-- The refresh token. -/
  refreshToken : String
  /-- How the access token is presented. -/
  tokenType : String
  deriving DecidableEq, Repr

namespace TokenPair

/-- A pair whose access token is presented as a bearer token. -/
def bearer (access refresh : String) : TokenPair := ⟨access, refresh, "bearer"⟩

/-- The written form. -/
def toJson (p : TokenPair) : Json :=
  .object
    [("access_token", .string p.accessToken), ("refresh_token", .string p.refreshToken),
     ("token_type", .string p.tokenType)]

/-- Reads the written form. -/
def ofJson? (j : Json) : Option TokenPair := do
  let fs ← j.fields? ["access_token", "refresh_token", "token_type"]
  return {
    accessToken := ← fs.need "access_token" Json.string?
    refreshToken := ← fs.need "refresh_token" Json.string?
    tokenType := ← fs.need "token_type" Json.string? }

end TokenPair

end AuthCore
