import AuthCore.Json.Basic

/-!
# Requests to outer services

A request as data, a response, and the network between them. The network is not described: a peer
answers each request with the next of its responses, and a request for which none is left reaches
nobody.
-/

namespace AuthCore

/-- The content of a request. -/
inductive Content where
  | nothing
  /-- The fields of a form. -/
  | form (fields : List (String × String))
  /-- A document. -/
  | json (j : Json)

/-- A request. -/
structure Request where
  /-- Whether something is sent, and not only asked for. -/
  isPost : Bool
  /-- The address. -/
  address : String
  /-- What is added to the query of the address. -/
  query : List (String × String)
  /-- The token that authorises the request. -/
  bearer : Option String
  /-- What is sent. -/
  content : Content

/-- A response. -/
structure Response where
  /-- The status. -/
  status : Nat
  /-- The content. -/
  body : String
  deriving DecidableEq, Repr

/-- Who can be reached: the responses to come, and the requests that arrived. -/
structure Network where
  /-- The responses to come. -/
  responses : List Response
  /-- The requests that arrived. -/
  requests : List Request

namespace Request

/-- A request that asks for something. -/
def get (address : String) (query : List (String × String)) : Request :=
  ⟨false, address, query, none, .nothing⟩

/-- A request that sends something. -/
def post (address : String) (content : Content) : Request := ⟨true, address, [], none, content⟩

end Request

namespace Response

/-- Whether a response reports success. -/
def isSuccess (r : Response) : Bool := 200 ≤ r.status && r.status < 300

end Response

namespace Network

/-- A network that reaches nobody. -/
def offline : Network := ⟨[], []⟩

/-- Sends a request. -/
def send (r : Request) (n : Network) : Option Response × Network :=
  match n.responses with
  | [] => (none, n)
  | a :: rest => (some a, ⟨rest, n.requests ++ [r]⟩)

end Network

end AuthCore
