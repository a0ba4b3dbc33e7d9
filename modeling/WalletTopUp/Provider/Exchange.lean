import WalletTopUp.Http.Headers
import WalletTopUp.Http.Status
import WalletTopUp.Json.Form
import WalletTopUp.Metric
import WalletTopUp.Program
import WalletTopUp.Provider.Fault
import WalletTopUp.Retry.Policy
import WalletTopUp.Settings

/-!
# The exchange with a provider

Requests to a provider's interface carry a token, which is asked for by a request of its own and kept in
a slot that all requests to the provider share. An exchange is a program over the steps that can be
observed from outside: reading, filling and clearing the slot, the two kinds of requests, and the pauses
between them.
-/

namespace WalletTopUp

/-- How a provider is talked to. -/
structure ProviderClient where
  method : PaymentMethod
  settings : ProviderSettings
  retry : RetryPolicy
  /-- The provider reports an expired token by the status 403 as well. -/
  refreshOnForbidden : Bool
  deriving DecidableEq, Repr

/-- What a request asks for, whatever token it is sent with. -/
structure Errand where
  method : String
  path : String
  body : Option Json
  /-- The correlation id. -/
  requestId : String

/-- A request with a token. -/
structure ApiRequest where
  url : String
  errand : Errand
  token : String

/-- A request for a token. -/
structure AuthRequest where
  url : String
  body : Json
  requestId : String

/-- What came back. The body may break off, with a reason. It is read as UTF-8 whatever the headers say: the charset
of a content type is left out, and so is the byte order mark of UTF-16. -/
structure Reply where
  status : Nat
  body : Except String (List UInt8)

namespace Exchange

/-- One step of an exchange. -/
inductive Question where
  | readSlot
  | fillSlot (token : String)
  | clearSlot
  /-- Send a request for a token. -/
  | authenticate (request : AuthRequest)
  /-- Send a request. -/
  | call (request : ApiRequest)
  /-- Wait so many milliseconds. -/
  | pause (millis : Nat)
  /-- A random number for the jitter. -/
  | draw
  | now
  /-- A fresh random identifier. -/
  | fresh
  | count (metric : Metric)

/-- What a step yields. A request that gets no reply yields the reason. -/
@[reducible] def Answer : Question → Type
  | .readSlot => Option String
  | .fillSlot _ | .clearSlot => Unit
  | .authenticate _ | .call _ => Except String Reply
  | .pause _ => Unit
  | .draw => Fin 1000
  | .now => Instant
  | .fresh => Uuid
  | .count _ => Unit

end Exchange

abbrev Exchange : Interface := ⟨Exchange.Question, Exchange.Answer⟩

abbrev Exchanged (α : Type) := Attempt Exchange ProviderFault α

namespace Exchange

def step (question : Question) : Exchanged (Answer question) :=
  Attempt.perform (I := Exchange) question

end Exchange

namespace ProviderClient

/-- The address without the slashes at its end. -/
def base (c : ProviderClient) : String :=
  String.ofList (c.settings.baseUrl.toList.reverse.dropWhile (· = '/')).reverse

/-- The exchange fails because the credentials or the token were refused. -/
def refused (c : ProviderClient) (reason : String) : ProviderFault :=
  .authentication c.method reason

end ProviderClient

end WalletTopUp
