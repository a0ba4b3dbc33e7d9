import WalletTopUp.Provider.Response

/-!
# The two providers

With Gopay amounts travel in floating point. A wallet is named in the path of its balance. An order has failed
when its status says so.

ShopeePay takes orders in whole units of the currency: an amount with a fraction, or one that is no signed word of
64 bits, is refused before anything is sent. An order has failed when the result or the status of its details says
so.
-/

namespace WalletTopUp

namespace Gopay

def client (settings : ProviderSettings) (retry : RetryPolicy) : ProviderClient :=
  ⟨.gopay, settings, retry, true⟩

abbrev balanceShape : Json.Shape :=
  .record "GopayBalanceResponse" <|
    .field "status" (.scalar .text) <|
    .field "data" (.record "GopayBalanceData" <|
      .field "wallet_id" (.scalar .text) <|
      .field "balance" (.scalar .float) <|
      .field "currency" (.scalar .text) <|
      .field "last_updated" (.optional (.scalar .instant)) .done) .done

abbrev topUpShape : Json.Shape :=
  .record "GopayTopUpResponse" <|
    .field "status" (.scalar .text) <|
    .field "transaction_id" (.scalar .text) <|
    .field "amount" (.scalar .float) .done

def balancePath (walletId : String) : String := "/v1/wallets/" ++ walletId ++ "/balance"

def topUpPath : String := "/v1/wallets/topup"

def orderBody (order : TopUpOrder) : Json :=
  Json.ofMembers [("wallet_id", .text order.walletId),
    ("amount", .number (.float order.amount.toBinary64)),
    ("payment_method", .text "BANK_TRANSFER"), ("reference_id", .text order.referenceId)]

def balance (c : ProviderClient) (walletId requestId : String) : Exchanged WalletBalance := do
  let r ← c.send ⟨"GET", balancePath walletId, none, requestId⟩
  c.requireSuccess r
  let (_, (walletId, stated, currency, lastUpdated, ()), ()) ← c.decodeBody balanceShape r
  return ⟨walletId, ← c.amountOf stated, currency, lastUpdated⟩

/-- Place an order; nothing comes back when the provider declines it. -/
def topUp (c : ProviderClient) (order : TopUpOrder) : Exchanged (Option Acceptance) := do
  let r ← c.send ⟨"POST", topUpPath, some (orderBody order), order.referenceId⟩
  c.ifAccepted r do
    let (word, providerId, stated, ()) ← c.decodeBody topUpShape r
    let status := TransactionStatus.ofProvider word
    if status = .failed then return none
    return some ⟨providerId, status, word, ← c.amountOf stated⟩

end Gopay

namespace ShopeePay

def client (settings : ProviderSettings) (retry : RetryPolicy) : ProviderClient :=
  ⟨.shopeePay, settings, retry, false⟩

abbrev balanceShape : Json.Shape :=
  .record "ShopeePayBalanceResponse" <|
    .field "result" (.scalar .text) <|
    .field "balance_info" (.record "BalanceInfo" <|
      .field "user_id" (.scalar .text) <|
      .field "available_balance" (.scalar .float) <|
      .field "currency_code" (.scalar .text) <|
      .field "last_transaction_date" (.optional (.scalar .instant)) .done) .done

abbrev topUpShape : Json.Shape :=
  .record "ShopeePayTopUpResponse" <|
    .field "result" (.scalar .text) <|
    .field "topup_details" (.record "TopUpDetails" <|
      .field "transaction_id" (.scalar .text) <|
      .field "amount" (.scalar .float) <|
      .field "status" (.scalar .text) .done) .done

def balancePath : String := "/v1/wallet/balance"

def topUpPath : String := "/v1/wallet/topup"

def balanceBody (walletId requestId : String) : Json :=
  Json.ofMembers [("user_id", .text walletId), ("request_id", .text requestId),
    ("include_details", .flag true)]

/-- What an order for a whole amount says. -/
def orderBody (order : TopUpOrder) (amount : Int) : Json :=
  Json.ofMembers [("user_id", .text order.walletId),
    ("topup_amount", .number (.integer amount)),
    ("source_type", .text "BANK_ACCOUNT"), ("request_id", .text order.referenceId),
    ("source_details", Json.ofMembers [("bank_code", .text "BNI"),
      ("account_number", .text order.accountId)])]

/-- The amount of an order as the provider takes it, or why it does not. -/
def wholeAmount (amount : Decimal) : Except String Int :=
  if amount.isWhole then
    match amount.toInt64? with
    | some n => .ok n
    | none => .error ("amount " ++ amount.text ++ " is out of range")
  else .error ("amount " ++ amount.text ++ " must be a whole number")

def balance (c : ProviderClient) (walletId requestId : String) : Exchanged WalletBalance := do
  let r ← c.send ⟨"POST", balancePath, some (balanceBody walletId requestId), requestId⟩
  c.requireSuccess r
  let (_, (walletId, stated, currency, lastUpdated, ()), ()) ← c.decodeBody balanceShape r
  return ⟨walletId, ← c.amountOf stated, currency, lastUpdated⟩

/-- Place an order; nothing comes back when the provider declines it. -/
def topUp (c : ProviderClient) (order : TopUpOrder) : Exchanged (Option Acceptance) := do
  match wholeAmount order.amount with
  | .error reason => throw (.invalidRequest c.method reason)
  | .ok amount =>
    let r ← c.send ⟨"POST", topUpPath, some (orderBody order amount), order.referenceId⟩
    c.ifAccepted r do
      let (result, (providerId, stated, word, ()), ()) ← c.decodeBody topUpShape r
      let status := TransactionStatus.ofProvider word
      if status = .failed ∨ TransactionStatus.ofProvider result = .failed then return none
      return some ⟨providerId, status, word, ← c.amountOf stated⟩

end ShopeePay

namespace ProviderClient

def ofSettings (method : PaymentMethod) (settings : ProviderSettings) (retry : RetryPolicy) :
    ProviderClient :=
  match method with
  | .gopay => Gopay.client settings retry
  | .shopeePay => ShopeePay.client settings retry

def balance (c : ProviderClient) (walletId requestId : String) : Exchanged WalletBalance :=
  match c.method with
  | .gopay => Gopay.balance c walletId requestId
  | .shopeePay => ShopeePay.balance c walletId requestId

/-- Place an order; nothing comes back when the provider declines it. -/
def topUp (c : ProviderClient) (order : TopUpOrder) : Exchanged (Option Acceptance) :=
  match c.method with
  | .gopay => Gopay.topUp c order
  | .shopeePay => ShopeePay.topUp c order

end ProviderClient

end WalletTopUp
