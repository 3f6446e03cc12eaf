import ComputePlane.Error
import ComputePlane.Json.Basic

/-!
# Failures seen through the gateway

The status and the body with which the gateway answers a request that it does not carry out.
-/

namespace ComputePlane

/-- Why the gateway does not carry out a request. -/
inductive GatewayFailure where
  | badRequest (text : String)
  | unauthorized
  | operation (cause : Error)
  deriving DecidableEq, Repr

namespace GatewayFailure

def message : GatewayFailure → String
  | badRequest text => text
  | unauthorized => "unauthorized"
  | operation cause => cause.message

/-- The status of the answer: what is absent comes before every other cause. -/
def status : GatewayFailure → HttpStatus
  | badRequest _ => ⟨400⟩
  | unauthorized => ⟨401⟩
  | operation cause =>
    if cause.isNotFound then ⟨404⟩
    else
      match cause with
      | .invalidId _ => ⟨400⟩
      | .managerClosed => ⟨503⟩
      | _ => ⟨502⟩

def body (f : GatewayFailure) : Json :=
  .record [("error", .text f.message)]

end GatewayFailure

end ComputePlane
