import WalletTopUp.Json.Form
import WalletTopUp.Text.Characters
import WalletTopUp.Text.Hex
import WalletTopUp.Time.Instant

/-!
# Payment methods

The e-wallet providers that a top-up can go to, and the two kinds of identifiers that depend on them.
A wallet id is a phone number behind three digits of its provider, so that the wallets of the two
providers never share an id. A reference id names one top-up towards the provider, which takes it for
an idempotency key: it holds the millisecond, a random part and the provider.
-/

namespace WalletTopUp

/-- An e-wallet provider. -/
inductive PaymentMethod where
  | gopay
  | shopeePay
  deriving DecidableEq, Repr, Inhabited

namespace PaymentMethod

/-- The name that requests and records use. -/
def name : PaymentMethod → String
  | gopay => "GOPAY"
  | shopeePay => "SHOPEE_PAY"

def names : List String := ["GOPAY", "SHOPEE_PAY"]

def index : PaymentMethod → Fin 2
  | gopay => 0
  | shopeePay => 1

def ofIndex : Fin 2 → PaymentMethod
  | 0 => gopay
  | 1 => shopeePay

@[simp] theorem ofIndex_index (m : PaymentMethod) : ofIndex m.index = m := by
  cases m <;> rfl

/-- An optional method survives the way through its place. -/
theorem map_ofIndex_map_index (m : Option PaymentMethod) : (m.map index).map ofIndex = m := by
  rcases m with _ | m
  · rfl
  · cases m <;> rfl

instance : Json.Form PaymentMethod where
  shape := .choice names
  pack := index
  unpack := ofIndex
  unpack_pack := ofIndex_index

def ofName? (s : String) : Option PaymentMethod :=
  if s = "GOPAY" then some gopay
  else if s = "SHOPEE_PAY" then some shopeePay
  else none

def unknownMessage (s : String) : String := "invalid payment method: " ++ s

/-- The digits that keep the wallet ids of the providers apart. -/
def walletMark : PaymentMethod → String
  | gopay => "898"
  | shopeePay => "897"

/-- The provider's id of the wallet behind a phone number. -/
def walletId (m : PaymentMethod) (phone : String) : String :=
  m.walletMark ++ phone

/-- The end of a reference id. -/
def referenceMark : PaymentMethod → String
  | gopay => "GPX"
  | shopeePay => "SPX"

/-- The id of a top-up at an instant; the nonce is written in upper case. -/
def referenceId (m : PaymentMethod) (at' : Instant) (nonce : String) : String :=
  "TRX-" ++ toString at'.epochMillis ++ "-" ++ Text.upper nonce ++ "-" ++ m.referenceMark

@[simp] theorem ofName?_name (m : PaymentMethod) : ofName? m.name = some m := by
  cases m <;> rfl

theorem ofName?_eq_some_iff {s : String} {m : PaymentMethod} :
    ofName? s = some m ↔ s = m.name := by
  constructor
  · intro h
    unfold ofName? at h
    split at h
    · cases h
      assumption
    · split at h
      · cases h
        assumption
      · cases h
  · rintro rfl
    exact ofName?_name m

end PaymentMethod

/-- The eight digits of the random bits in a reference id. -/
def nonceDigits (random : BitVec 32) : String :=
  String.ofList (Text.hexDigits 8 random.toNat)

end WalletTopUp
