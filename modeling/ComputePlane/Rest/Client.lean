import ComputePlane.Rest.Exchange
import ComputePlane.Settings
import ComputePlane.Text.Base64

/-!
# A client of the cloud

Makes calls over a link that carries requests to the cloud and answers back. What the link does is
left open: it can also be down. So is which character sets the client can read beside its own.
-/

namespace ComputePlane.Rest

/-- A client: where the cloud answers, without slashes at the end, and how the client shows
itself. -/
structure Client where
  endpoint : String
  authorization : String
  deriving DecidableEq, Repr

/-- A request as it is sent. -/
structure Outgoing where
  method : Method
  url : Url
  authorization : String
  contentType : Option String
  body : String
  deriving DecidableEq, Repr

/-- What carries requests. It gives no answer where the connection is lost. -/
abbrev Link := Outgoing → Option Response

namespace Client

def forAccount (endpoint user password : String) : Client where
  endpoint := Text.dropTrailing '/' endpoint
  authorization :=
    "Basic " ++ Text.Base64.encode (Text.Utf8.encode (user ++ ":" ++ password).toList)

def ofSettings (s : Settings) : Client :=
  forAccount s.endpoint s.username s.password

/-- The request of an exchange. There is none if the text of its URL is no URL. -/
def outgoing? {α : Type} (c : Client) (x : Exchange α) : Option Outgoing := do
  let url ← Url.ofText? (c.endpoint ++ x.path)
  return {
    method := x.method
    url := (x.depth.map fun d => url.withParameter "depth" (Number.decimal d)).getD url
    authorization := c.authorization
    contentType := x.payload.contentType
    body := x.payload.text }

/-- The result of an exchange over a link. -/
def run {α : Type} (c : Client) (link : Link) (x : Exchange α)
    (others : Text.Charset.Others := fun _ => none) : Except Failure α :=
  match (c.outgoing? x).bind link with
  | some r => x.read others r
  | none => .error .request

/-- The result of a call over a link. -/
def call (c : Client) (link : Link) (call : Call)
    (others : Text.Charset.Others := fun _ => none) : call.Result :=
  match c.run link (exchange call) others with
  | .ok a => .ok a
  | .error f => .error f.toError

end Client

end ComputePlane.Rest
