import AuthCore.Error.Auth
import AuthCore.Error.Fault
import AuthCore.Json.Basic

/-!
# Errors

The error of every operation: a domain error, a fault of some area, or either of them under a
context. A context changes the text only; code, status and domain error stay those of its inside.
-/

namespace AuthCore

/-- An error. -/
inductive Error where
  | auth (e : AuthError)
  | config (f : ConfigFault)
  | database (f : DatabaseFault)
  | cache (f : CacheFault)
  | network (f : NetworkFault)
  | serialization (f : SerializationFault)
  | internal (f : InternalFault)
  /-- An error with a text in front that says what was going on. -/
  | context (text : String) (inner : Error)
  deriving DecidableEq, Repr

namespace Error

/-- The domain error inside, if there is one. -/
def auth? : Error → Option AuthError
  | auth e => some e
  | context _ inner => inner.auth?
  | _ => none

/-- The code of an error. -/
def code : Error → String
  | auth e => e.code
  | config _ => "CONFIG_ERROR"
  | database _ => "DATABASE_ERROR"
  | cache _ => "CACHE_ERROR"
  | network _ => "NETWORK_ERROR"
  | serialization _ => "SERIALIZATION_ERROR"
  | internal _ => "INTERNAL_ERROR"
  | context _ inner => inner.code

/-- The name of the area an error comes from. -/
def area : Error → String
  | auth _ => "Auth"
  | config _ => "Config"
  | database _ => "Database"
  | cache _ => "Cache"
  | network _ => "Network"
  | serialization _ => "Serialization"
  | internal _ => "Internal"
  | context _ _ => "Context"

/-- The status of an error at the transport. -/
def status : Error → Nat
  | auth e => e.status
  | network _ => 502
  | context _ inner => inner.status
  | _ => 500

/-- The text of an error. -/
def message : Error → String
  | auth e => e.message
  | config f => "配置错误: " ++ f.message
  | database f => "数据库错误: " ++ f.message
  | cache f => "缓存错误: " ++ f.message
  | network f => "网络错误: " ++ f.message
  | serialization f => "序列化错误: " ++ f.message
  | internal f => "内部错误: " ++ f.message
  | context text inner => text ++ ": " ++ inner.message

/-- Whether an error has a cause below it. -/
def caused : Error → Bool
  | auth _ => false
  | config f => f.caused
  | database f => f.caused
  | cache f => f.caused
  | network f => f.caused
  | serialization _ => true
  | internal f => f.caused
  | context _ _ => true

/-- Whether the server, and not the client, is at fault. -/
def isServer (e : Error) : Bool := 500 ≤ e.status && e.status < 600

/-- The body of the answer that reports an error to a client. -/
def body (e : Error) : Json :=
  let (kind, message, detail) := match e.auth? with
    | some a => (a.kind.name, a.message, a.detail)
    | none => ("internal", e.message, [])
  .object
    [("success", .bool false),
     ("error", .object
       [("kind", .string kind), ("code", .string e.code), ("message", .string message),
        ("detail", .strings detail)])]

end Error

/-- The answer of an operation: a value, or an error. -/
abbrev Answer (α : Type) := Except Error α

instance : Coe AuthError Error := ⟨.auth⟩

end AuthCore
