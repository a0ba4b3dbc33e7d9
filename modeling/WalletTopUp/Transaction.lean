import WalletTopUp.Json.Form
import WalletTopUp.PaymentMethod

/-!
# Transactions

A `Transaction` records one completed top-up. It is made once, never changed, shown to the caller in
part and published whole.
-/

namespace WalletTopUp

/-- The kind of a transaction. -/
inductive TransactionType where
  | topUp
  deriving DecidableEq, Repr, Inhabited

namespace TransactionType

def name : TransactionType → String
  | topUp => "TOPUP"

def names : List String := ["TOPUP"]

def index : TransactionType → Fin 1
  | topUp => 0

def ofIndex (_ : Fin 1) : TransactionType := topUp

@[simp] theorem ofIndex_index (t : TransactionType) : ofIndex t.index = t := by
  cases t
  rfl

instance : Json.Form TransactionType where
  shape := .choice names
  pack := index
  unpack := ofIndex
  unpack_pack := ofIndex_index

end TransactionType

/-- How far a transaction has come. -/
inductive TransactionStatus where
  | pending
  | success
  | failed
  deriving DecidableEq, Repr, Inhabited

namespace TransactionStatus

def name : TransactionStatus → String
  | pending => "PENDING"
  | success => "SUCCESS"
  | failed => "FAILED"

def names : List String := ["PENDING", "SUCCESS", "FAILED"]

def index : TransactionStatus → Fin 3
  | pending => ⟨0, by decide⟩
  | success => ⟨1, by decide⟩
  | failed => ⟨2, by decide⟩

def ofIndex : Fin 3 → TransactionStatus
  | 0 => pending
  | 1 => success
  | 2 => failed

@[simp] theorem ofIndex_index (s : TransactionStatus) : ofIndex s.index = s := by
  cases s <;> rfl

instance : Json.Form TransactionStatus where
  shape := .choice names
  pack := index
  unpack := ofIndex
  unpack_pack := ofIndex_index

/-- The words for a settled and for a failed top-up. -/
def successWords : List String := ["SUCCESS", "COMPLETED", "SETTLED"]

def failureWords : List String := ["FAILED", "REJECTED", "CANCELLED"]

/-- The status that a provider's word stands for, in any case of ASCII letters. A word of neither
kind leaves the matter open. -/
def ofProvider (word : String) : TransactionStatus :=
  let word := Text.upper word
  if successWords.contains word then success
  else if failureWords.contains word then failed
  else pending

end TransactionStatus

/-- The record of a completed top-up. -/
structure Transaction where
  id : Uuid
  userId : Json.Word
  accountId : String
  /-- The reference id: the provider knows the top-up by it and the event is keyed by it. -/
  transactionId : String
  type : TransactionType
  status : TransactionStatus
  amount : Decimal
  balanceBefore : Decimal
  balanceAfter : Decimal
  currency : String
  description : Option String
  /-- The provider's own id of the top-up. -/
  externalReference : Option String
  paymentMethod : Option PaymentMethod
  metadata : Option Json
  isAccessibleFromExternal : Bool
  createdAt : Instant
  updatedAt : Instant

namespace Transaction

abbrev fields : Json.Fields :=
  .field "id" (.scalar .uuid) <|
  .field "user_id" (.scalar .int64) <|
  .field "account_id" (.scalar .text) <|
  .field "transaction_id" (.scalar .text) <|
  .field "transaction_type" (.choice TransactionType.names) <|
  .field "transaction_status" (.choice TransactionStatus.names) <|
  .field "amount" (.scalar .amount) <|
  .field "balance_before" (.scalar .amount) <|
  .field "balance_after" (.scalar .amount) <|
  .field "currency" (.scalar .text) <|
  .field "description" (.optional (.scalar .text)) <|
  .field "external_reference" (.optional (.scalar .text)) <|
  .field "payment_method" (.optional (.choice PaymentMethod.names)) <|
  .field "metadata" (.optional .any) <|
  .field "is_accessible_from_external" (.scalar .flag) <|
  .field "created_at" (.scalar .instant) <|
  .field "updated_at" (.scalar .instant) .done

def toFields (t : Transaction) : fields.Values :=
  (t.id, t.userId, t.accountId, t.transactionId, t.type.index, t.status.index, t.amount,
    t.balanceBefore, t.balanceAfter, t.currency, t.description, t.externalReference,
    t.paymentMethod.map PaymentMethod.index, t.metadata, t.isAccessibleFromExternal, t.createdAt,
    t.updatedAt, ())

def ofFields : fields.Values → Transaction
  | (id, userId, accountId, transactionId, type, status, amount, balanceBefore, balanceAfter,
      currency, description, externalReference, paymentMethod, metadata, isAccessible, createdAt,
      updatedAt, ()) =>
    ⟨id, userId, accountId, transactionId, .ofIndex type, .ofIndex status, amount, balanceBefore,
      balanceAfter, currency, description, externalReference,
      paymentMethod.map PaymentMethod.ofIndex, metadata, isAccessible, createdAt, updatedAt⟩

@[simp] theorem ofFields_toFields (t : Transaction) : ofFields t.toFields = t := by
  obtain ⟨_, _, _, _, _, _, _, _, _, _, _, _, paymentMethod, _, _, _, _⟩ := t
  simp only [ofFields, toFields, TransactionType.ofIndex_index, TransactionStatus.ofIndex_index]
  congr 1
  exact PaymentMethod.map_ofIndex_map_index paymentMethod

instance : Json.Form Transaction where
  shape := .record "Transaction" fields
  pack := toFields
  unpack := ofFields
  unpack_pack := ofFields_toFields

end Transaction

end WalletTopUp
