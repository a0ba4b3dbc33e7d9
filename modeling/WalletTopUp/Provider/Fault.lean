import WalletTopUp.Fault
import WalletTopUp.PaymentMethod

/-!
# Failures of calls to a provider

Each failure names the provider. Towards the caller of the service a failure becomes a `Fault`: refused
credentials are reported as such, a request that the provider turns down is the caller's business, and
everything else is a bad gateway.
-/

namespace WalletTopUp

/-- The failure of a call to a provider. -/
inductive ProviderFault where
  /-- No token could be had, or the provider refused the request even with a new one. -/
  | authentication (provider : PaymentMethod) (reason : String)
  /-- Server errors outlived the retries. -/
  | server (provider : PaymentMethod) (status : Nat)
  /-- No reply came back. -/
  | transport (provider : PaymentMethod) (reason : String)
  /-- The provider turned the request down. -/
  | rejected (provider : PaymentMethod) (status : Nat) (body : String)
  | invalidResponse (provider : PaymentMethod) (reason : String)
  /-- The request cannot be put into the provider's form. -/
  | invalidRequest (provider : PaymentMethod) (reason : String)
  deriving DecidableEq, Repr

namespace ProviderFault

def message : ProviderFault → String
  | authentication p reason => p.name ++ " authentication failed: " ++ reason
  | server p status => p.name ++ " returned server error " ++ toString status
  | transport p reason => p.name ++ " request failed: " ++ reason
  | rejected p status _ => p.name ++ " rejected the request with status " ++ toString status
  | invalidResponse p reason => p.name ++ " returned an unreadable response: " ++ reason
  | invalidRequest p reason => p.name ++ " cannot accept request: " ++ reason

def isAuthentication : ProviderFault → Bool
  | authentication _ _ => true
  | _ => false

/-- The fault that the caller of the service gets. -/
def toFault (f : ProviderFault) : Fault :=
  match f with
  | authentication _ _ => .providerAuthentication (.of f.message)
  | rejected _ status _ =>
    if status = 404 then .notFound (.of f.message) else .badRequest (.of f.message)
  | invalidRequest _ _ => .badRequest (.of f.message)
  | server _ _ | transport _ _ | invalidResponse _ _ => .badGateway f.message

end ProviderFault

end WalletTopUp
