import WalletTopUp.Provider.Token

/-!
# Sending a request

A request to a provider survives up to `maxRetries` server errors, each followed by a longer pause, and one
refused token, which is replaced. The two budgets are independent: a new token does not renew the budget
for server errors. Every attempt repeats the same request; only the token may change.
-/

namespace WalletTopUp.ProviderClient

/-- What a status means for the request. -/
inductive Verdict where
  /-- The provider has answered. -/
  | answered
  | serverError
  /-- The provider does not take the token. -/
  | refused
  deriving DecidableEq, Repr

def verdict (c : ProviderClient) (status : Nat) : Verdict :=
  if Http.isServerError status then .serverError
  else if status = 401 ∨ (c.refreshOnForbidden = true ∧ status = 403) then .refused
  else .answered

/-- Why a request with a token that no header can hold is not sent. -/
def unsendable : String := "<transport>"

/-- A reply with the text of its body. -/
structure Response where
  status : Nat
  body : String
  deriving DecidableEq, Repr

/-- The text of a body: ill-formed bytes are replaced, a byte order mark is dropped. -/
def bodyText (bytes : List UInt8) : String :=
  match Text.decodeLossy bytes with
  | '\ufeff' :: rest => String.ofList rest
  | cs => String.ofList cs

/-- The response that a reply is, unless its body breaks off. -/
def readBody (c : ProviderClient) (reply : Reply) : Exchanged Response :=
  match reply.body with
  | .ok bytes => return ⟨reply.status, bodyText bytes⟩
  | .error reason => throw (.transport c.method reason)

def attempt (c : ProviderClient) (errand : Errand) (token : String) : Exchanged Reply := do
  if (headerBytes? token).isNone then throw (.transport c.method unsendable)
  match ← Exchange.step (.call ⟨c.base ++ errand.path, errand, token⟩) with
  | .ok reply => return reply
  | .error reason => throw (.transport c.method reason)

/-- Pause before the next attempt when `left` more server errors will be forgiven after this one. -/
def waitForServer (c : ProviderClient) (left : Nat) : Exchanged Unit := do
  let drawn ← if c.retry.jitter then Exchange.step .draw else pure RetryPolicy.noDraw
  Exchange.step (.count (.providerRetries c.method .serverError))
  Exchange.step (.pause (c.retry.backoff (c.retry.maxRetries - (left + 1)) drawn))

/-- Attempts with one token and `left` server errors that will be forgiven. When the token is refused,
`onRefusal` goes on with what is left of the budget. -/
def attempts (c : ProviderClient) (errand : Errand)
    (onRefusal : (left status : Nat) → Exchanged Response) (token : String) :
    (left : Nat) → Exchanged Response
  | 0 => do
    let reply ← c.attempt errand token
    match c.verdict reply.status with
    | .answered => c.readBody reply
    | .refused => onRefusal 0 reply.status
    | .serverError => throw (.server c.method reply.status)
  | left + 1 => do
    let reply ← c.attempt errand token
    match c.verdict reply.status with
    | .answered => c.readBody reply
    | .refused => onRefusal (left + 1) reply.status
    | .serverError =>
      c.waitForServer left
      attempts c errand onRefusal token left

/-- The second refusal is final. -/
def giveUp (c : ProviderClient) (_left status : Nat) : Exchanged Response := do
  dropToken
  throw (c.refused (Http.statusText status ++ " after token refresh"))

/-- After the first refusal a new token gets a chance. -/
def refresh (c : ProviderClient) (errand : Errand) (left _status : Nat) : Exchanged Response := do
  dropToken
  Exchange.step (.count (.providerRetries c.method .tokenRefresh))
  let token ← c.fetchToken
  c.attempts errand c.giveUp token left

/-- Send a request and get the provider's response. -/
def send (c : ProviderClient) (errand : Errand) : Exchanged Response := do
  let token ← c.currentToken
  c.attempts errand (c.refresh errand) token c.retry.maxRetries

end WalletTopUp.ProviderClient
