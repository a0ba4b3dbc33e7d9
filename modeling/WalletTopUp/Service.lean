import WalletTopUp.Account
import WalletTopUp.Fault
import WalletTopUp.Metric
import WalletTopUp.Program
import WalletTopUp.Provider.Fault
import WalletTopUp.Provider.Wallet

/-!
# What the service is built on

The service looks users up, reads and writes accounts, reads and writes a cache, calls providers, and hands
finished transactions on. Each of these is one question of the interface `Service`, so that the order of
the effects of an operation can be read off its program.

Other parts of the platform read and drop the same entries of the cache, so the keys are fixed. A pattern ends
in a star and stands for all keys that begin with what is before it.
-/

namespace WalletTopUp

namespace CacheKey

def account (username : String) : String := "account:" ++ username

def balance (username : String) : String := "balance:" ++ username

def transaction (id : String) : String := "trx:" ++ id

/-- The key of one page of a list of transactions. -/
def transactionList (page size : Nat) : String :=
  "trx_list:" ++ toString page ++ ":" ++ toString size

def transactionPattern : String := "trx:*"

def transactionListPattern : String := "trx_list:*"

def transactionCount : String := "trx_count"

end CacheKey

namespace Service

/-- One step of an operation. -/
inductive Question where
  | findUser (username : String)
  | readAccount (userId : Json.Word)
  /-- Write the balance and the time of change of the account with this id. -/
  | writeBalance (account : Account)
  | readCache (key : String)
  | writeCache (key value : String) (minutes : Nat)
  /-- Place an order with one of the registered providers, by its place among them. -/
  | orderTopUp (provider : Nat) (order : TopUpOrder)
  | walletBalance (provider : Nat) (walletId requestId : String)
  /-- Hand a transaction to the side effects; nobody waits for them. -/
  | dispatch (username : String) (transaction : Transaction)
  | now
  /-- A fresh random identifier. -/
  | fresh
  | count (metric : Metric)

@[reducible] def Answer : Question → Type
  | .findUser _ => Except Fault (Option User)
  | .readAccount _ => Except Fault (Option Account)
  /- The number of accounts that were written. -/
  | .writeBalance _ => Except Fault Nat
  | .readCache _ => Except String (Option String)
  | .writeCache _ _ _ => Except String Unit
  | .orderTopUp _ _ => Except ProviderFault (Option Acceptance)
  | .walletBalance _ _ _ => Except ProviderFault WalletBalance
  | .dispatch _ _ => Unit
  | .now => Instant
  | .fresh => Uuid
  | .count _ => Unit

end Service

abbrev Service : Interface := ⟨Service.Question, Service.Answer⟩

/-- An operation that may fail. -/
abbrev Serving (α : Type) := Attempt Service Fault α

namespace Service

def step {ε : Type} (question : Question) : Attempt Service ε (Answer question) :=
  Attempt.perform (I := Service) question

/-- A failure that was not expected ends the operation. -/
def orFail {α : Type} : Except Fault α → Serving α
  | .ok a => pure a
  | .error fault => throw fault

/-- What was looked for has to be there. -/
def orNotFound {α : Type} (message : String) : Option α → Serving α
  | some a => pure a
  | none => throw (.notFound (.of message))

def requireUser (username : String) : Serving User := do
  orNotFound ("user not found: " ++ username) (← orFail (← step (.findUser username)))

/-- The account of a user, who is called `username` in the complaint when there is none. -/
def requireAccount (userId : Json.Word) (username : String) : Serving Account := do
  orNotFound ("account not found for user: " ++ username)
    (← orFail (← step (.readAccount userId)))

end Service

end WalletTopUp
