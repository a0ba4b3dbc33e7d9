import WalletTopUp.Money.Floating
import WalletTopUp.Provider.Send
import WalletTopUp.Provider.Wallet

/-!
# Reading a provider's response

What both providers have in common: a lookup has to succeed; a client error on an order is the provider's
no, and any other status without success makes no sense; a body has to hold the record that is expected and
an amount that exists.
-/

namespace WalletTopUp.ProviderClient

/-- The body does not hold what it should. -/
def unreadable (c : ProviderClient) (reason : String) : ProviderFault :=
  .invalidResponse c.method reason

/-- The values of a record that the body of a response writes. -/
def decodeBody (c : ProviderClient) (shape : Json.Shape) (r : Response) : Exchanged shape.Value :=
  match shape.whole (Text.symbols r.body) with
  | .ok value => return value
  | .error failure => throw (c.unreadable failure.text)

/-- The amount that a provider states. -/
def amountOf (c : ProviderClient) (x : Binary64) : Exchanged Decimal :=
  match Decimal.ofBinary64? x with
  | some amount => return amount
  | none =>
    throw (c.unreadable
      ("invalid amount " ++ x.positional ++ ": Error while converting to Decimal"))

/-- A lookup that the provider turns down is an error. -/
def requireSuccess (c : ProviderClient) (r : Response) : Exchanged Unit :=
  if Http.isSuccess r.status then return () else throw (.rejected c.method r.status r.body)

/-- Go on with the response to an order, unless it is the provider's no. -/
def ifAccepted (c : ProviderClient) (r : Response)
    (accepted : Exchanged (Option Acceptance)) : Exchanged (Option Acceptance) :=
  if Http.isClientError r.status then return none
  else if Http.isSuccess r.status then accepted
  else throw (c.unreadable ("unexpected status " ++ Http.statusText r.status))

end WalletTopUp.ProviderClient
