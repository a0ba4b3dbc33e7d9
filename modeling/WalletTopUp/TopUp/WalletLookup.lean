import WalletTopUp.Service
import WalletTopUp.TopUp.Registry
import WalletTopUp.View

/-!
# The balance of an e-wallet

The wallet of a user is looked up at its provider under the user's own phone number. The answer names the
user's account and is in the currency of the service.
-/

namespace WalletTopUp.TopUp

def currency : String := "IDR"

/-- The provider's word on a wallet, or its failure as the caller is told. -/
def orProviderFault {α : Type} : Except ProviderFault α → Serving α
  | .ok a => pure a
  | .error fault => throw fault.toFault

/-- Look up the balance of the wallet that a user has at a provider. -/
def walletBalance (registry : Registry) (username walletType : String) : Serving WalletView := do
  let user ← Service.requireUser username
  let (method, provider) ← Service.orFail (registry.choose walletType)
  let requestId ← Service.step .fresh
  let found ← orProviderFault
    (← Service.step (.walletBalance provider (method.walletId user.phoneNumber) requestId.text))
  let account ← Service.requireAccount user.id username
  let lastUpdated ← match found.lastUpdated with
    | some at' => pure at'
    | none => Service.step .now
  return ⟨method, found.balance, currency, account.id, lastUpdated⟩

end WalletTopUp.TopUp
