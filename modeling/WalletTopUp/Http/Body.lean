import WalletTopUp.Http.MediaType
import WalletTopUp.Http.Message
import WalletTopUp.Json.Form

/-!
# JSON bodies

The body of a request is read when the headers call it JSON. What follows the value in the body is not
looked at. A body that is not JSON is a bad request; JSON that does not have the expected form is reported
with the place where it departs from it.
-/

namespace WalletTopUp.Http

/-- Why a body is refused. -/
inductive BodyFault where
  | mediaType
  | malformed (failure : Json.Failure)
  | mismatch (path : List Json.Step) (message : String)
  deriving DecidableEq, Repr

namespace BodyFault

def status : BodyFault → Nat
  | mediaType => 415
  | malformed _ => 400
  | mismatch _ _ => 422

def message : BodyFault → String
  | mediaType => "Expected request with `Content-Type: application/json`"
  | malformed failure => "Failed to parse the request body as JSON: " ++ failure.text
  | mismatch path message =>
    "Failed to deserialize the JSON body into the target type: " ++
      (if path.isEmpty then "" else Json.pathText path ++ ": ") ++ message

def ofFailure : Json.Failure → BodyFault
  | .mismatch path message => mismatch path message
  | failure => malformed failure

end BodyFault

/-- The value that the body of a request writes. -/
def readBody {α : Type} [Json.Form α] (request : HttpRequest) : Except BodyFault α :=
  if hasJsonBody request.headers then
    (Json.decodeFirst (Text.decode request.body)).mapError BodyFault.ofFailure
  else .error .mediaType

end WalletTopUp.Http
