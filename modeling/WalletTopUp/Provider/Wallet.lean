import WalletTopUp.Transaction

/-!
# Wallets at a provider

What the service asks a provider for and what it gets, in terms that both providers share.
-/

namespace WalletTopUp

/-- The balance of a wallet. -/
structure WalletBalance where
  walletId : String
  balance : Decimal
  currency : String
  lastUpdated : Option Instant
  deriving DecidableEq

/-- An order to top a wallet up. -/
structure TopUpOrder where
  walletId : String
  amount : Decimal
  /-- Names the top-up: an order repeated under the same id is carried out once. -/
  referenceId : String
  /-- The account that the money comes from. -/
  accountId : String
  deriving DecidableEq

/-- The provider's word that an order was accepted. -/
structure Acceptance where
  /-- The provider's own id of the top-up. -/
  providerId : String
  status : TransactionStatus
  /-- The status in the provider's words. -/
  providerStatus : String
  amount : Decimal
  deriving DecidableEq

end WalletTopUp
