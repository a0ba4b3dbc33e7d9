import WalletTopUp.Service
import WalletTopUp.TopUp.Registry
import WalletTopUp.View

/-!
# The top-up of a wallet

A top-up runs in a fixed order. The request is checked, the user and the account are looked up, the account
has to be active and to hold the amount, and the provider has to be registered. Only then the order is
placed, and only when the provider has accepted it the account is debited. The account is read once more,
the transaction is recorded and handed to the side effects.
-/

namespace WalletTopUp

/-- Why a top-up came to an end without a receipt. -/
inductive Stop where
  /-- It failed, and the caller is told so. -/
  | fault (fault : Fault)
  /-- The new balance of the account does not exist as an amount; nothing can be answered. -/
  | overflow

namespace TopUp

/-- A top-up on its way. -/
abbrev Flow (α : Type) := Attempt Service Stop α

/-- A part of the way that may fail. -/
def part {α : Type} (x : Serving α) : Flow α := ExceptT.adapt Stop.fault x

def fail {α : Type} (fault : Fault) : Flow α := throw (.fault fault)

/-- The part of a random identifier that goes into a reference id: its first eight digits, of its first 32 bits. -/
def nonce (id : Uuid) : String := nonceDigits (id.value.extractLsb' 96 32)

/-- The account that an order may be paid from. -/
def payingAccount (username : String) (user : User) (amount : Decimal) : Flow Account := do
  let account ← part (Service.requireAccount user.id username)
  if !account.isActive then fail (.forbidden (.of ("account is " ++ account.status.name)))
  if account.balance < amount then fail (.badRequest (.of "insufficient balance for top up"))
  return account

def order (request : TopUpRequest) (account : Account) (method : PaymentMethod) : Flow TopUpOrder := do
  let now ← Service.step .now
  let id ← Service.step .fresh
  return {
    walletId := method.walletId request.phoneNumber
    amount := request.amount
    referenceId := method.referenceId now (nonce id)
    accountId := account.id }

/-- Place an order that has to be accepted. -/
def place (provider : Nat) (order : TopUpOrder) : Flow Acceptance := do
  match ← Service.step (.orderTopUp provider order) with
  | .error fault => fail fault.toFault
  | .ok none => fail (.notFound (.of ("top up failed for walletId: " ++ order.walletId)))
  | .ok (some acceptance) => return acceptance

/-- Take the amount off the balance of the account as it was read. -/
def debit (account : Account) (amount : Decimal) : Flow Unit := do
  let now ← Service.step .now
  match account.debited? amount now with
  | none => throw .overflow
  | some debited =>
    let _ ← part (Service.orFail (← Service.step (.writeBalance debited)))

/-- The account after the debit. -/
def reread (user : User) (account : Account) : Flow Account := do
  match ← part (Service.orFail (← Service.step (.readAccount user.id))) with
  | some current => return current
  | none => fail (.internal (.of ("account " ++ account.id ++ " disappeared after debit")))

/-- The record of an accepted order. -/
def transaction (request : TopUpRequest) (method : PaymentMethod) (user : User)
    (before current : Account) (order : TopUpOrder) (acceptance : Acceptance) (id : Uuid)
    (now : Instant) : Transaction where
  id
  userId := user.id
  accountId := current.id
  transactionId := order.referenceId
  type := .topUp
  status := acceptance.status
  amount := request.amount
  balanceBefore := before.balance
  balanceAfter := current.balance
  currency := current.currency
  description := request.description
  externalReference := some acceptance.providerId
  paymentMethod := some method
  metadata := some (Json.ofMembers [("wallet_id", .text order.walletId),
    ("provider_status", .text acceptance.providerStatus)])
  isAccessibleFromExternal := false
  createdAt := now
  updatedAt := now

def execute (registry : Registry) (username : String) (request : TopUpRequest) : Flow Receipt := do
  if let some report := request.validate then fail (.invalid report)
  let user ← part (Service.requireUser username)
  let account ← payingAccount username user request.amount
  let (method, provider) ← part (Service.orFail (registry.choose request.paymentMethod))
  let order ← order request account method
  let acceptance ← place provider order
  debit account request.amount
  let current ← reread user account
  let now ← Service.step .now
  let id ← Service.step .fresh
  let transaction := transaction request method user account current order acceptance id now
  Service.step (.dispatch username transaction)
  return transaction.receipt

def outcomeOf : Fault → TopUpOutcome
  | .notFound _ => .notFound
  | .forbidden _ => .forbidden
  | .badRequest _ | .invalid _ => .invalid
  | .providerAuthentication _ => .providerAuthentication
  | .badGateway _ => .providerError
  | _ => .error

/-- Carry a request out and count how it ended. -/
def topUp (registry : Registry) (username : String) (request : TopUpRequest) :
    Program Service (Except Stop Receipt) := do
  let result ← (execute registry username request).run
  let count (outcome : TopUpOutcome) : Program Service Unit :=
    Program.perform (I := Service)
      (.count (.topUps (PaymentMethod.ofName? request.paymentMethod) outcome))
  match result with
  | .ok _ => count .success
  | .error (.fault fault) => count (outcomeOf fault)
  | .error .overflow => pure ()
  return result

end TopUp

end WalletTopUp
