import WalletTopUp.Account
import WalletTopUp.Transaction

/-!
# What callers see

The answers of the service: an account, its balance, a receipt for a top-up, the balance of an e-wallet,
and the envelope around each of them.
-/

namespace WalletTopUp

/-- An account as its owner sees it. -/
structure AccountView where
  id : String
  userId : Json.Word
  balance : Decimal
  currency : String
  status : AccountStatus
  createdAt : Instant
  updatedAt : Instant
  deriving DecidableEq

namespace AccountView

def toFields (a : AccountView) : Account.fields.Values :=
  (a.id, a.userId, a.balance, a.currency, a.status.index, a.createdAt, a.updatedAt, ())

def ofFields : Account.fields.Values → AccountView
  | (id, userId, balance, currency, status, createdAt, updatedAt, ()) =>
    ⟨id, userId, balance, currency, .ofIndex status, createdAt, updatedAt⟩

@[simp] theorem ofFields_toFields (a : AccountView) : ofFields a.toFields = a := by
  simp [ofFields, toFields]

instance : Json.Form AccountView where
  shape := .record "AccountResponse" Account.fields
  pack := toFields
  unpack := ofFields
  unpack_pack := ofFields_toFields

end AccountView

/-- The account as its owner sees it. -/
def Account.view (a : Account) : AccountView :=
  ⟨a.id, a.userId, a.balance, a.currency, a.status, a.createdAt, a.updatedAt⟩

/-- The balance of an account. -/
structure BalanceView where
  balance : Decimal
  currency : String
  deriving DecidableEq

namespace BalanceView

abbrev fields : Json.Fields :=
  .field "balance" (.scalar .amount) <|
  .field "currency" (.scalar .text) .done

instance : Json.Form BalanceView where
  shape := .record "BalanceResponse" fields
  pack := fun b => (b.balance, b.currency, ())
  unpack := fun (balance, currency, ()) => ⟨balance, currency⟩
  unpack_pack := fun _ => rfl

end BalanceView

def Account.balanceView (a : Account) : BalanceView := ⟨a.balance, a.currency⟩

/-- The part of a transaction that its owner sees. -/
structure Receipt where
  id : Uuid
  transactionId : String
  type : TransactionType
  amount : Decimal
  currency : String
  status : TransactionStatus
  balanceBefore : Decimal
  balanceAfter : Decimal
  paymentMethod : Option PaymentMethod
  description : Option String
  createdAt : Instant
  deriving DecidableEq

namespace Receipt

abbrev fields : Json.Fields :=
  .field "id" (.scalar .uuid) <|
  .field "transaction_id" (.scalar .text) <|
  .field "transaction_type" (.choice TransactionType.names) <|
  .field "amount" (.scalar .amount) <|
  .field "currency" (.scalar .text) <|
  .field "transaction_status" (.choice TransactionStatus.names) <|
  .field "balance_before" (.scalar .amount) <|
  .field "balance_after" (.scalar .amount) <|
  .field "payment_method" (.optional (.choice PaymentMethod.names)) <|
  .field "description" (.optional (.scalar .text)) <|
  .field "created_at" (.scalar .instant) .done

def toFields (r : Receipt) : fields.Values :=
  (r.id, r.transactionId, r.type.index, r.amount, r.currency, r.status.index, r.balanceBefore,
    r.balanceAfter, r.paymentMethod.map PaymentMethod.index, r.description, r.createdAt, ())

def ofFields : fields.Values → Receipt
  | (id, transactionId, type, amount, currency, status, balanceBefore, balanceAfter,
      paymentMethod, description, createdAt, ()) =>
    ⟨id, transactionId, .ofIndex type, amount, currency, .ofIndex status, balanceBefore,
      balanceAfter, paymentMethod.map PaymentMethod.ofIndex, description, createdAt⟩

@[simp] theorem ofFields_toFields (r : Receipt) : ofFields r.toFields = r := by
  obtain ⟨_, _, _, _, _, _, _, _, paymentMethod, _, _⟩ := r
  simp only [ofFields, toFields, TransactionType.ofIndex_index, TransactionStatus.ofIndex_index]
  congr 1
  exact PaymentMethod.map_ofIndex_map_index paymentMethod

instance : Json.Form Receipt where
  shape := .record "TransactionResponse" fields
  pack := toFields
  unpack := ofFields
  unpack_pack := ofFields_toFields

end Receipt

/-- The part of the transaction that its owner sees. -/
def Transaction.receipt (t : Transaction) : Receipt :=
  ⟨t.id, t.transactionId, t.type, t.amount, t.currency, t.status, t.balanceBefore, t.balanceAfter,
    t.paymentMethod, t.description, t.createdAt⟩

/-- The balance of an e-wallet, with the account that belongs to its owner. -/
structure WalletView where
  provider : PaymentMethod
  balance : Decimal
  currency : String
  accountNumber : String
  lastUpdated : Instant
  deriving DecidableEq

namespace WalletView

abbrev fields : Json.Fields :=
  .field "provider" (.choice PaymentMethod.names) <|
  .field "balance" (.scalar .amount) <|
  .field "currency" (.scalar .text) <|
  .field "account_number" (.scalar .text) <|
  .field "last_updated" (.scalar .instant) .done

def toFields (w : WalletView) : fields.Values :=
  (w.provider.index, w.balance, w.currency, w.accountNumber, w.lastUpdated, ())

def ofFields : fields.Values → WalletView
  | (provider, balance, currency, accountNumber, lastUpdated, ()) =>
    ⟨.ofIndex provider, balance, currency, accountNumber, lastUpdated⟩

@[simp] theorem ofFields_toFields (w : WalletView) : ofFields w.toFields = w := by
  simp [ofFields, toFields]

instance : Json.Form WalletView where
  shape := .record "EWalletBalanceResponse" fields
  pack := toFields
  unpack := ofFields
  unpack_pack := ofFields_toFields

end WalletView

/-- An answer with the code and the message of its success. -/
structure Envelope (α : Type) where
  code : String
  message : String
  data : α

namespace Envelope

def ok {α : Type} (message : String) (data : α) : Envelope α := ⟨"200", message, data⟩

/-- The written form: what is said about the answer, then the answer. -/
def encode {α : Type} [Json.Form α] (e : Envelope α) : String :=
  String.ofList <|
    "\x7b\"meta\":\x7b\"code\":".toList ++ Json.stringChars e.code ++
      ",\"message\":".toList ++ Json.stringChars e.message ++
      "\x7d,\"data\":".toList ++ (Json.Form.shape α).chars (Json.Form.pack e.data) ++ ['\x7d']

end Envelope

end WalletTopUp
