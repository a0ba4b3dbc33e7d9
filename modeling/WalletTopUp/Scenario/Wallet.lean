import WalletTopUp.Provider.Exchange
import WalletTopUp.Provider.Wallet

/-!
# Providers of a scenario

A provider of a scenario answers from a list, or it is talked to over its interface: by a server that answers
from lists of replies, or by none, and then no request gets through.
-/

namespace WalletTopUp.Scenario

/-- The first of some prepared answers, and those that are left; the last one stays. -/
def takeNext {α : Type} : List α → Option α × List α
  | [] => (none, [])
  | [a] => (some a, [a])
  | a :: rest => (some a, rest)

/-- A prepared answer to an order. -/
inductive PreparedTopUp where
  /-- Without an id the provider makes one of the reference id; without an amount it is the order's. -/
  | accept (providerId : Option String) (status : TransactionStatus) (providerStatus : String)
      (amount : Option Decimal)
  | decline
  | fail (fault : ProviderFault)

def PreparedTopUp.answer (order : TopUpOrder) :
    PreparedTopUp → Except ProviderFault (Option Acceptance)
  | accept providerId status providerStatus amount =>
    .ok (some ⟨providerId.getD ("PRV-" ++ order.referenceId), status, providerStatus,
      amount.getD order.amount⟩)
  | decline => .ok none
  | fail fault => .error fault

/-- A prepared answer to a question for a balance. -/
inductive PreparedBalance where
  | state (balance : Decimal) (currency : String) (lastUpdated : Option Instant)
  | fail (fault : ProviderFault)

/-- The answer to a question for the balance of a wallet. -/
def PreparedBalance.answer (walletId : String) : PreparedBalance → Except ProviderFault WalletBalance
  | state balance currency lastUpdated => .ok ⟨walletId, balance, currency, lastUpdated⟩
  | fail fault => .error fault

/-- A server with prepared replies to the two kinds of requests. -/
structure Server where
  auth : List (Except String Reply)
  api : List (Except String Reply)

/-- The reply when nothing is prepared. -/
def Server.nothing : Except String Reply := .ok ⟨404, .ok []⟩

/-- A provider that is talked to over its interface. -/
structure Remote where
  client : ProviderClient
  slot : Option String
  /-- Without a server no request gets through. -/
  server : Option Server

/-- A provider of a scenario. -/
inductive Wallet where
  | prepared (method : PaymentMethod) (topUps : List PreparedTopUp) (balances : List PreparedBalance)
  | remote (remote : Remote)

def Wallet.method : Wallet → PaymentMethod
  | prepared method _ _ => method
  | remote r => r.client.method

end WalletTopUp.Scenario
