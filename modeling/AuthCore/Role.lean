import AuthCore.Json.Decode

/-!
# Roles

The role of a user. Administrators and auditors are staff.
-/

namespace AuthCore

/-- The role of a user. -/
inductive Role where
  | admin
  | customer
  | audit
  deriving DecidableEq, Repr, Inhabited

namespace Role

/-- The written name of a role. -/
def name : Role → String
  | admin => "admin"
  | customer => "customer"
  | audit => "audit"

/-- The role with a name. -/
def ofName? : String → Option Role
  | "admin" => some admin
  | "customer" => some customer
  | "audit" => some audit
  | _ => none

/-- Whether a role may enter the back office. -/
def isStaff : Role → Bool
  | admin | audit => true
  | customer => false

/-- The text that refuses a name. -/
def unknown (s : String) : String := "Invalid user role: " ++ s

/-- Whether a filter lets a role pass; no filter lets every role pass. -/
def allowed (filter : Option (List Role)) (r : Role) : Bool :=
  match filter with
  | none => true
  | some roles => roles.contains r

/-- The written form. -/
def toJson (r : Role) : Json := .string r.name

/-- Reads the written form. -/
def ofJson? : Json → Option Role := Json.variant? ofName?

end Role

end AuthCore
