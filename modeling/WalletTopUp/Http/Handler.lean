import WalletTopUp.Http.Body
import WalletTopUp.Http.Cookie
import WalletTopUp.Http.Query
import WalletTopUp.Service.Lookup
import WalletTopUp.Subject.Verifier
import WalletTopUp.TopUp.Flow
import WalletTopUp.TopUp.WalletLookup

/-!
# Handlers

A handler turns a request into a response. The handlers of the payment routes authenticate the caller before
they look at anything else of the request, and act for the subject of the token alone.
-/

namespace WalletTopUp

/-- Serves requests. A handler stops only when there is no response at all. -/
abbrev Handler := HttpRequest → Attempt Service Stop HttpResponse

/-- What the handlers share. -/
structure Gateway where
  verifier : SubjectVerifier
  registry : Registry

namespace Http

def faultResponse (fault : Fault) : HttpResponse := jsonResponse fault.status fault.body.write

def successResponse {α : Type} [Json.Form α] (message : String) (data : α) : HttpResponse :=
  jsonResponse 200 (Envelope.ok message data).encode

/-! ## Authentication -/

def authCookie : String := "auth-token"

/-- The token of a bearer authorization; a blank one is none. -/
def bearerToken? (headers : Headers) : Option String := do
  let value ← headers.text? "authorization"
  let rest ← "Bearer ".toList.isPrefixOf? value.toList
  let token := Text.trim (String.ofList rest)
  if token.isEmpty then none else some token

/-- The token of a request: the bearer's, or else the cookie's. -/
def token? (headers : Headers) : Option String :=
  bearerToken? headers <|> cookieValue? headers authCookie

/-- The subject of the token of a request at a moment. -/
def subject (v : SubjectVerifier) (now : Instant) (headers : Headers) : Except Fault String :=
  match token? headers with
  | none => .error (.unauthenticated (.of "Missing authentication token"))
  | some token => v.subject now.epochSeconds token

/-- Serve a request for the caller who is authenticated by it. -/
def authenticated (g : Gateway) (serve : (username : String) → Handler) : Handler := fun request => do
  let now ← Service.step .now
  match subject g.verifier now request.headers with
  | .error fault => return faultResponse fault
  | .ok username => serve username request

/-! ## Routes -/

/-- The response to an operation that came to an end. -/
def respond {α : Type} [Json.Form α] (message : String) (x : Serving α) :
    Attempt Service Stop HttpResponse := do
  match ← ExceptT.lift x.run with
  | .ok data => return successResponse message data
  | .error fault => return faultResponse fault

def version : String := "0.1.0"

def health : Handler := fun _ =>
  return jsonResponse 200 (Json.ofMembers [("status", .text "ok"),
    ("service", .text "payment-gateway"), ("version", .text version)]).write

def ready : Handler := fun _ =>
  return jsonResponse 200 (Json.ofMembers [("status", .text "ready")]).write

/-- The exporter of the counts has nothing to show here. -/
def metrics : Handler := fun _ => return textResponse 200 ""

def account (g : Gateway) : Handler := authenticated g fun username _ =>
  respond "Account retrieved successfully" (Service.account username)

def balance (g : Gateway) : Handler := authenticated g fun username _ =>
  respond "Balance retrieved successfully" (Service.balance username)

def wallet (g : Gateway) : Handler := authenticated g fun username request =>
  match queryValue request.query "ewallet" with
  | .error fault => return textResponse 400 fault.message
  | .ok walletType =>
    respond "E-wallet balance retrieved successfully"
      (TopUp.walletBalance g.registry username walletType)

def topUp (g : Gateway) : Handler := authenticated g fun username request =>
  match (readBody request : Except BodyFault TopUpRequest) with
  | .error fault => return textResponse fault.status fault.message
  | .ok order => do
    match ← ExceptT.lift (TopUp.topUp g.registry username order) with
    | .ok receipt => return successResponse "Top up successful" receipt
    | .error (.fault fault) => return faultResponse fault
    | .error .overflow => throw .overflow

end Http

end WalletTopUp
