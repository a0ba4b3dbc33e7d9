import WalletTopUp.Json.Form

/-!
# Users and their ledger accounts

A user has at most one account in the ledger. Only active accounts may be debited.
-/

namespace WalletTopUp

/-- The life of an account. -/
inductive AccountStatus where
  | active
  | suspended
  | closed
  deriving DecidableEq, Repr, Inhabited

namespace AccountStatus

def name : AccountStatus → String
  | active => "ACTIVE"
  | suspended => "SUSPENDED"
  | closed => "CLOSED"

def names : List String := ["ACTIVE", "SUSPENDED", "CLOSED"]

def index : AccountStatus → Fin 3
  | active => 0
  | suspended => 1
  | closed => 2

def ofIndex : Fin 3 → AccountStatus
  | 0 => active
  | 1 => suspended
  | 2 => closed

@[simp] theorem ofIndex_index (s : AccountStatus) : ofIndex s.index = s := by
  cases s <;> rfl

instance : Json.Form AccountStatus where
  shape := .choice names
  pack := index
  unpack := ofIndex
  unpack_pack := ofIndex_index

end AccountStatus

/-- An account of the ledger. -/
structure Account where
  id : String
  userId : Json.Word
  balance : Decimal
  currency : String
  status : AccountStatus
  createdAt : Instant
  updatedAt : Instant
  deriving DecidableEq

namespace Account

abbrev fields : Json.Fields :=
  .field "id" (.scalar .text) <|
  .field "user_id" (.scalar .int64) <|
  .field "balance" (.scalar .amount) <|
  .field "currency" (.scalar .text) <|
  .field "account_status" (.choice AccountStatus.names) <|
  .field "created_at" (.scalar .instant) <|
  .field "updated_at" (.scalar .instant) .done

def toFields (a : Account) : fields.Values :=
  (a.id, a.userId, a.balance, a.currency, a.status.index, a.createdAt, a.updatedAt, ())

def ofFields : fields.Values → Account
  | (id, userId, balance, currency, status, createdAt, updatedAt, ()) =>
    ⟨id, userId, balance, currency, .ofIndex status, createdAt, updatedAt⟩

@[simp] theorem ofFields_toFields (a : Account) : ofFields a.toFields = a := by
  simp [ofFields, toFields]

instance : Json.Form Account where
  shape := .record "Account" fields
  pack := toFields
  unpack := ofFields
  unpack_pack := ofFields_toFields

def isActive (a : Account) : Bool := a.status == .active

/-- The account with `amount` taken off its balance, unless the difference does not exist. -/
def debited? (a : Account) (amount : Decimal) (at' : Instant) : Option Account :=
  (a.balance.sub? amount).map fun balance => { a with balance, updatedAt := at' }

end Account

/-- A user of the platform. -/
structure User where
  id : Json.Word
  username : String
  phoneNumber : String
  email : Option String
  fullName : Option String
  createdAt : Instant
  updatedAt : Instant
  deriving DecidableEq

namespace User

abbrev fields : Json.Fields :=
  .field "id" (.scalar .int64) <|
  .field "username" (.scalar .text) <|
  .field "phone_number" (.scalar .text) <|
  .field "email" (.optional (.scalar .text)) <|
  .field "full_name" (.optional (.scalar .text)) <|
  .field "created_at" (.scalar .instant) <|
  .field "updated_at" (.scalar .instant) .done

def toFields (u : User) : fields.Values :=
  (u.id, u.username, u.phoneNumber, u.email, u.fullName, u.createdAt, u.updatedAt, ())

def ofFields : fields.Values → User
  | (id, username, phoneNumber, email, fullName, createdAt, updatedAt, ()) =>
    ⟨id, username, phoneNumber, email, fullName, createdAt, updatedAt⟩

instance : Json.Form User where
  shape := .record "User" fields
  pack := toFields
  unpack := ofFields
  unpack_pack := fun _ => rfl

end User

end WalletTopUp
