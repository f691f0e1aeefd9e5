import AuthCore.Action
import AuthCore.Http.Address
import AuthCore.Http.Status

/-!
# Delivery of messages

A message goes into the outbox, into the log, or to a gateway as a posted document.
-/

namespace AuthCore

namespace Message

/-- The channel of a message. -/
def channel : Message → Channel
  | sms _ => .sms
  | email _ _ => .email

/-- What a gateway is sent. -/
def document (sender recipient : String) : Message → Json
  | sms body => .object [("to", .string recipient), ("message", .string body)]
  | email subject body =>
    .object
      [("from", .string sender), ("to", .string recipient), ("subject", .string subject),
       ("body", .string body)]

/-- What the log says about a message. -/
def logged (recipient : String) : Message → Event
  | sms body => .smsLogged recipient body.utf8ByteSize
  | email subject body => .emailLogged recipient subject body.utf8ByteSize

end Message

/-- The gateway of a channel. -/
def NotifierConfig.endpoint (c : NotifierConfig) : Channel → Option String
  | .sms => c.smsUrl
  | .email => c.emailUrl

/-- Sends a request to an address; an address that is no web address reaches nobody. -/
def Action.fetch (r : Request) : Action Response := do
  if Address.isWeb r.address then
    match ← Action.send r with
    | some a => return a
    | none => throw (.network .failed)
  else throw (.network .failed)

namespace Notifier

/-- The delivery that a configuration asks for. -/
def ofConfig (c : NotifierConfig) : Notifier :=
  match c.kind with
  | .log => .log
  | .webhook => .webhook c

/-- Posts a message to its gateway. -/
def post (c : NotifierConfig) (recipient : String) (m : Message) : Action Unit := do
  let some url := c.endpoint m.channel | throw (.config (.noEndpoint m.channel.title))
  let response ← Action.fetch (.post url (.json (m.document c.senderEmail recipient)))
  if response.isSuccess then Action.log (.webhookDelivered m.channel)
  else throw (.network (.deliveryStatus m.channel.title (Status.text response.status)))

/-- Delivers a message. -/
def deliver (n : Notifier) (recipient : String) (m : Message) : Action Unit :=
  match n with
  | outbox failure => do
    modify fun w => { w with outbox := w.outbox ++ [⟨recipient, m⟩] }
    match failure with
    | some e => throw e
    | none => return ()
  | log => Action.log (m.logged recipient)
  | webhook c => post c recipient m

end Notifier

end AuthCore
