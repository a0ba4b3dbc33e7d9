import WalletTopUp.Service
import WalletTopUp.View

/-!
# Looking up accounts and balances

A lookup asks the cache first. What the cache does not hold, cannot deliver or holds in no readable form is
read from the ledger and then put into the cache; whether that succeeds does not matter.
-/

namespace WalletTopUp.Service

/-- How long an account stays in the cache. -/
def accountMinutes : Nat := 15

/-- How long a balance stays in the cache. -/
def balanceMinutes : Nat := 10

/-- The entry of the cache under a key, if it can be read. -/
def cached {α : Type} [Json.Form α] (key : String) : Serving (Option α) := do
  match ← step (.readCache key) with
  | .ok (some entry) => return (Json.decode entry : Except Json.Failure α).toOption
  | .ok none => return none
  | .error _ => return none

/-- What a user may see of an account, straight from the ledger. -/
def readView {α : Type} (view : Account → α) (username : String) : Serving α := do
  let user ← requireUser username
  return view (← requireAccount user.id user.username)

/-- What a user may see of an account, by way of the cache. -/
def lookup {α : Type} [Json.Form α] (key : String) (minutes : Nat) (view : Account → α)
    (username : String) : Serving α := do
  match ← cached key with
  | some a => return a
  | none =>
    let a ← readView view username
    let _ ← step (.writeCache key (Json.encode a) minutes)
    return a

def account (username : String) : Serving AccountView :=
  lookup (CacheKey.account username) accountMinutes Account.view username

def balance (username : String) : Serving BalanceView :=
  lookup (CacheKey.balance username) balanceMinutes Account.balanceView username

end WalletTopUp.Service
