import WalletTopUp.TopUp.Request

/-!
# Faults

A `Fault` is what a request of a caller fails with. Its message is for the log; the answer to the
caller has a status and a text of its own, which for failures behind the service says only what failed
and nothing of the causes.
-/

namespace WalletTopUp

/-- A message and the causes below it, the outermost first. -/
structure Cause where
  message : String
  below : List String
  deriving DecidableEq, Repr

namespace Cause

/-- A message without causes. -/
def of (message : String) : Cause := ⟨message, []⟩

/-- The same failure seen from further outside. -/
def within (cause : Cause) (message : String) : Cause := ⟨message, cause.message :: cause.below⟩

end Cause

/-- The failure of a request. -/
inductive Fault where
  /-- The request breaks the rules for its fields. -/
  | invalid (report : TopUpRequest.Report)
  | badRequest (cause : Cause)
  | notFound (cause : Cause)
  | forbidden (cause : Cause)
  /-- The caller could not be authenticated. -/
  | unauthenticated (cause : Cause)
  /-- A provider refuses the credentials of the service. -/
  | providerAuthentication (cause : Cause)
  | internal (cause : Cause)
  /-- A provider failed or could not be reached. -/
  | badGateway (message : String)
  | unavailable
  | database (cause : Cause)
  | cache (message : String)
  | configuration (cause : Cause)

namespace Fault

/-- The message of a fault: its kind and the outermost message. -/
def message : Fault → String
  | invalid report => "Validation error: " ++ report.text
  | badRequest c => "Bad request: " ++ c.message
  | notFound c => "Not found: " ++ c.message
  | forbidden c => "Forbidden: " ++ c.message
  | unauthenticated c => "Authentication error: " ++ c.message
  | providerAuthentication c => "Provider authentication failed: " ++ c.message
  | internal c => "Internal server error: " ++ c.message
  | badGateway m => "Bad Gateway: " ++ m
  | unavailable => "Service Unavailable"
  | database c => "Database error: " ++ c.message
  | cache m => "Redis error: " ++ m
  | configuration c => "Configuration error: " ++ c.message

def status : Fault → Nat
  | invalid _ => 422
  | badRequest _ => 400
  | notFound _ => 404
  | forbidden _ => 403
  | unauthenticated _ => 401
  | providerAuthentication _ => 424
  | badGateway _ => 502
  | unavailable => 503
  | internal _ | database _ | cache _ | configuration _ => 500

/-- The text of the answer. -/
def answer : Fault → String
  | invalid _ => "Validation error"
  | badRequest c | notFound c | forbidden c | unauthenticated c => c.message
  | providerAuthentication _ => "Payment provider authentication failed"
  | badGateway _ => "Payment provider unavailable"
  | unavailable => "Service unavailable"
  | internal _ => "Internal server error"
  | database _ => "Database error"
  | cache _ => "Cache error"
  | configuration _ => "Configuration error"

/-- What the answer adds to its text. -/
def details? : Fault → Option String
  | invalid report => some report.text
  | _ => none

def body (f : Fault) : Json :=
  .object <| ("error", .text f.answer) :: f.details?.toList.map fun d => ("details", .text d)

def ofInputOutput (message : String) : Fault := internal (.of message)

/-- The fault of an answer of the database that makes no sense. -/
def ofProtocol (message : String) : Fault :=
  database (.of ("encountered unexpected or invalid data: " ++ message))

/-- The fault of a cache reply of the wrong type. -/
def ofReplyType (message : String) : Fault := cache ("bad type - TypeError: " ++ message)

end Fault

end WalletTopUp
