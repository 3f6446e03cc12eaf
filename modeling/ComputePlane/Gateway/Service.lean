import ComputePlane.MediaType
import ComputePlane.Gateway.NodeOrder
import ComputePlane.Gateway.Route
import ComputePlane.Lifecycle.Destroy
import ComputePlane.Lifecycle.Listing
import ComputePlane.Lifecycle.Power

/-!
# The gateway

Answers to requests. A request without the key is refused before anything else about it is looked
at. Then come the path, the method, the parts of the path, the query or the body, and last the
operation that the request asks for.
-/

namespace ComputePlane.Gateway

open Lifecycle Program

/-! ## Requests and answers -/

structure HttpRequest where
  method : String
  uri : String
  headers : List (String × String)
  body : String
  deriving DecidableEq, Repr

inductive Content where
  | empty
  | json (value : Json)
  | plain (text : String)
  deriving Repr

structure HttpAnswer where
  status : HttpStatus
  content : Content
  deriving Repr

/-- Why a request is turned away without being understood. -/
inductive Rejection where
  | unreadablePath
  | repeatedQuery
  | notJson
  | malformedBody
  | mismatchedBody
  deriving DecidableEq, Repr

namespace Rejection

def status : Rejection → HttpStatus
  | unreadablePath => ⟨400⟩
  | repeatedQuery => ⟨400⟩
  | notJson => ⟨415⟩
  | malformedBody => ⟨400⟩
  | mismatchedBody => ⟨422⟩

/-- What is wrong, in words. -/
def text : Rejection → String
  | unreadablePath => "the path is not UTF-8"
  | repeatedQuery => "the query names something twice"
  | notJson => "the content type is not JSON"
  | malformedBody => "the body is not JSON"
  | mismatchedBody => "the body is not of the expected kind"

end Rejection

namespace HttpAnswer

/-- An answer without content. -/
def bare (code : Nat) : HttpAnswer := ⟨⟨code⟩, .empty⟩

/-- The answer to what was carried out. -/
def success (code : Nat) (value : Json) : HttpAnswer := ⟨⟨code⟩, .json value⟩

/-- The answer to what was not carried out. -/
def failure (f : GatewayFailure) : HttpAnswer := ⟨f.status, .json f.body⟩

/-- The answer to what was not understood. -/
def rejection (r : Rejection) : HttpAnswer := ⟨r.status, .plain r.text⟩

/-- An answer of which only the status counts. -/
def withoutContent (a : HttpAnswer) : HttpAnswer := { a with content := .empty }

end HttpAnswer

/-! ## Headers -/

/-- A character that a header may show: no control character but the tab, and ASCII only. -/
def isPlain (c : Char) : Bool :=
  c = '\t' || (31 < c.toNat && c.toNat < 127)

/-- The first value of a header, if it can be shown. The case of the name does not matter. -/
def header? (headers : List (String × String)) (name : String) : Option String :=
  ((headers.find? (Text.sameFolded name ·.1)).map (·.2)).filter (·.toList.all isPlain)

def showsKey (key : String) (r : HttpRequest) : Bool :=
  header? r.headers "authorization" = some ("Bearer " ++ key)

/-- A request says that its body is JSON. -/
def saysJson (r : HttpRequest) : Bool :=
  ((header? r.headers "content-type").bind MediaType.ofText?).any (·.isJson)

/-! ## Parts of requests -/

/-- The text of a node's segments. -/
def nodeText (datacenter server : String) : Except Rejection String :=
  match segmentText? datacenter, segmentText? server with
  | some dc, some id => .ok (dc ++ "/" ++ id)
  | _, _ => .error .unreadablePath

/-- The ids that a query names, if it names any: without blanks around them, and none empty. -/
def queryIds (query : Option String) : Except Rejection (Option (List String)) :=
  match (queryPairs (query.getD "")).filter (·.1 = "ids") with
  | [] => .ok none
  | [(_, ids)] => .ok (some (((Text.split ',' ids).map Text.trim).filter (· ≠ "")))
  | _ => .error .repeatedQuery

/-- The order that a request holds. -/
def order (r : HttpRequest) : Except Rejection NodeOrder :=
  if !saysJson r then .error .notJson
  else
    match Json.decode NodeOrder.decoder r.body with
    | .ok o => .ok o
    | .error .malformed => .error .malformedBody
    | .error .mismatched => .error .mismatchedBody

/-! ## Carrying out -/

/-- The answer of an operation. -/
def answer {α : Type} (op : Operation α) (f : α → HttpAnswer) : Program HttpAnswer := do
  match ← op.run with
  | .ok a => return f a
  | .error e => return .failure (.operation e)

/-- An answer made from a part of the request that can be unreadable. -/
def orReject {α : Type} (part : Except Rejection α) (f : α → Program HttpAnswer) :
    Program HttpAnswer :=
  match part with
  | .ok a => f a
  | .error r => return .rejection r

/-- The description of a created node. -/
def created (c : Created) : Json :=
  .record [("node", c.node.describe.toJson), ("credentials", c.credentials.toJson),
    ("skipped", .array (c.skipped.map (·.toJson)))]

def descriptions (nodes : List Node) : Json :=
  .array (nodes.map (·.describe.toJson))

/-- Creates the node that is ordered. -/
def place (s : AdapterSettings) (o : NodeOrder) (draws : Draws) : Program HttpAnswer :=
  match o.resolve draws with
  | .error f => return .failure f
  | .ok (name, template) =>
    answer (create s name template (draws.after NodeOrder.suffixLength)) fun c =>
      .success 201 (created c)

def PowerChange.operation (s : AdapterSettings) : PowerChange → String → Operation Unit
  | reboot => Lifecycle.reboot s
  | resume => Lifecycle.resume s
  | suspend => Lifecycle.suspend s

/-- The answer to an action. -/
def perform (s : AdapterSettings) (r : HttpRequest) (draws : Draws) : Action → Program HttpAnswer
  | .listLocations => answer (listLocations s) fun ls => .success 200 (.array (ls.map (·.toJson)))
  | .listHardware => return .success 200 (.array (Hardware.profiles.map (·.toJson)))
  | .listImages => answer listImages fun is => .success 200 (.array (is.map (·.describe.toJson)))
  | .getImage id =>
    orReject ((segmentText? id).elim (.error .unreadablePath) .ok) fun id =>
      answer (getImage id) fun i => .success 200 i.describe.toJson
  | .listNodes =>
    orReject (queryIds (Target.ofText r.uri).query) fun ids =>
      answer (ids.elim (listNodes s) (listNodesByIds s)) fun ns => .success 200 (descriptions ns)
  | .createNode => orReject (order r) (place s · draws)
  | .getNode dc id =>
    orReject (nodeText dc id) fun text =>
      answer (getNode text) fun n => .success 200 n.describe.toJson
  | .destroyNode dc id =>
    orReject (nodeText dc id) fun text => answer (destroy s text) fun _ => .bare 204
  | .changePower change dc id =>
    orReject (nodeText dc id) fun text => answer (change.operation s text) fun _ => .bare 204

/-- The answer to a request that shows the key. -/
def serve (s : AdapterSettings) (r : HttpRequest) (draws : Draws) : Program HttpAnswer :=
  match Route.ofPath? (Target.ofText r.uri).path with
  | none => return .bare 404
  | some route =>
    match route.action? r.method with
    | none => return .bare 405
    | some action => perform s r draws action

/-- The answer to a request, whatever its method: one for a key that is not shown, or else the one
to what is asked for. -/
def guarded (s : AdapterSettings) (key : String) (r : HttpRequest) (draws : Draws) :
    Program HttpAnswer :=
  if showsKey key r then serve s r draws else return .failure .unauthorized

/-- The answer to a request. The method `HEAD` asks for what `GET` does, without its content. -/
def respond (s : AdapterSettings) (key : String) (r : HttpRequest) (draws : Draws) :
    Program HttpAnswer :=
  if r.method = "HEAD" then do
    return (← guarded s key { r with method := "GET" } draws).withoutContent
  else guarded s key r draws

end ComputePlane.Gateway
