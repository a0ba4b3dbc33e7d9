import WalletTopUp.Http.Handler
import WalletTopUp.Trace.Context

/-!
# The router

A request is routed by its path, exactly as it is written, and by its method. Around the routes lie two
layers: the inner one counts requests, the outer one makes sure that request and response carry the same
correlation id.
-/

namespace WalletTopUp.Http

/-- The method that a route serves. -/
inductive RouteMethod where
  /-- Serves `HEAD` too, without the body. -/
  | get
  | post
  deriving DecidableEq, Repr

/-- The methods of a route as a refusal lists them. -/
def RouteMethod.allowed : RouteMethod → String
  | get => "GET,HEAD"
  | post => "POST"

/-- A path with what serves it. -/
structure Route where
  path : String
  method : RouteMethod
  handler : Handler

def routes (g : Gateway) : List Route := [
  ⟨"/health", .get, health⟩,
  ⟨"/ready", .get, ready⟩,
  ⟨"/metrics", .get, metrics⟩,
  ⟨"/api/payment/account", .get, account g⟩,
  ⟨"/api/payment/balance", .get, balance g⟩,
  ⟨"/api/payment/wallet", .get, wallet g⟩,
  ⟨"/api/payment/wallet/topup", .post, topUp g⟩]

def route? (g : Gateway) (path : String) : Option Route :=
  (routes g).find? (·.path = path)

def Route.serve (r : Route) : Handler := fun request =>
  match r.method, request.method with
  | .get, "GET" => r.handler request
  | .get, "HEAD" => do return { ← r.handler request with body := [] }
  | .post, "POST" => r.handler request
  | method, _ => return emptyResponse 405 [Headers.ofText "allow" method.allowed]

def dispatch (g : Gateway) : Handler := fun request =>
  match route? g request.path with
  | some r => r.serve request
  | none => return emptyResponse 404 []

/-! ## Layers -/

def unmatchedLabel : String := "unmatched"

/-- The route of a request as the counts show it. -/
def routeLabel (g : Gateway) (path : String) : String :=
  (route? g path).elim unmatchedLabel Route.path

/-- Count the requests that a handler serves. -/
def counted (label : String → String) (inner : Handler) : Handler := fun request => do
  let response ← inner request
  Service.step (.count (.httpRequests request.method (label request.path) response.status))
  Service.step (.count (.httpDurations request.method (label request.path) response.status))
  return response

/-- The correlation id that a request brings, if it is one: the first value, if it can be read and is not
blank. -/
def incomingRequestId? (headers : Headers) : Option (List UInt8) :=
  (headers.get? requestIdHeader).filter fun value =>
    (headerText? value).any fun text => !Text.isAllBlank text

/-- Give request and response the correlation id of the request, or a fresh one. -/
def correlated (inner : Handler) : Handler := fun request => do
  let requestId ← match incomingRequestId? request.headers with
    | some value => pure value
    | none => do pure (Text.bytes (← Service.step .fresh).text)
  let response ←
    inner { request with headers := request.headers.replace requestIdHeader requestId }
  return { response with headers := response.headers.replace requestIdHeader requestId }

def serve (g : Gateway) : Handler := correlated (counted (routeLabel g) (dispatch g))

end WalletTopUp.Http
