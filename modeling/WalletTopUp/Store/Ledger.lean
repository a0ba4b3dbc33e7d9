import WalletTopUp.Account

/-!
# The ledger in memory

A ledger holds at most one account for every user, in the order of the users. Writing changes the balance and
the time of change of the account with a given id and nothing else.
-/

namespace WalletTopUp

/-- The accounts of the ledger, in the order of their users. -/
abbrev Ledger := List Account

namespace Ledger

/-- The account of a user. -/
def account? (ledger : Ledger) (userId : Json.Word) : Option Account :=
  ledger.find? (·.userId = userId)

/-- Put an account in its place, over the one that its user had. -/
def put (a : Account) : Ledger → Ledger
  | [] => [a]
  | b :: rest =>
    if a.userId = b.userId then a :: rest
    else if a.userId.val < b.userId.val then a :: b :: rest
    else b :: put a rest

/-- Change the first account with an id. -/
def change (id : String) (f : Account → Account) : Ledger → Ledger
  | [] => []
  | a :: rest => if a.id = id then f a :: rest else a :: change id f rest

def hasId (ledger : Ledger) (id : String) : Bool := ledger.any (·.id = id)

/-- The ledger with the balance and the time of change that `a` has for the account with its id. -/
def write (ledger : Ledger) (a : Account) : Ledger :=
  ledger.change a.id fun b => { b with balance := a.balance, updatedAt := a.updatedAt }

/-- How many accounts a writing changes. -/
def writes (ledger : Ledger) (a : Account) : Nat := (ledger.hasId a.id).toNat

def remove (ledger : Ledger) (id : String) : Ledger := ledger.filter (·.id ≠ id)

@[simp] theorem account?_put_self (ledger : Ledger) (a : Account) :
    (ledger.put a).account? a.userId = some a := by
  induction ledger with
  | nil => simp [put, account?]
  | cons b rest ih =>
    unfold put
    split
    · simp [account?]
    · next h =>
      split
      · simp [account?]
      · simpa [account?, Ne.symm h] using ih

/-- A writing leaves the accounts of other ids as they were. -/
theorem account?_write_of_ne {ledger : Ledger} {a b : Account} {userId : Json.Word}
    (hb : ledger.account? userId = some b) (h : b.id ≠ a.id) :
    (ledger.write a).account? userId = some b := by
  induction ledger with
  | nil => cases hb
  | cons c rest ih =>
    by_cases hu : c.userId = userId
    · obtain rfl : c = b := by simpa [account?, hu] using hb
      simp [write, change, h, account?, hu]
    · have hb : Ledger.account? rest userId = some b := by simpa [account?, hu] using hb
      by_cases hc : c.id = a.id
      · simpa [write, change, hc, account?, hu] using hb
      · simpa [write, change, hc, account?, hu] using ih hb

end Ledger

end WalletTopUp
