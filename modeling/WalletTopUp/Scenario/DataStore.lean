import WalletTopUp.Redis.Cache

/-!
# A data store of a scenario

The store answers commands from a list of replies, one after the other, and keeps a record of what it was told.
-/

namespace WalletTopUp.Scenario

/-- A data store that answers from a list. -/
structure DataStore where
  replies : List Redis.Reply
  commands : List Redis.Command := []

namespace DataStore

/-- The reply when the list is used up. -/
def exhausted : Redis.Reply := .error "no more replies"

/-- Every command takes the next reply. -/
def answer (command : Redis.Command) : StateM DataStore (Except String Redis.Reply) := do
  let s ← get
  set (⟨s.replies.drop 1, s.commands ++ [command]⟩ : DataStore)
  return .ok (s.replies.head?.getD exhausted)

/-- Hold a dialogue with the store, starting a new record. -/
def converse {α : Type} (store : DataStore) (dialogue : Redis.Dialogue α) :
    Except String α × DataStore :=
  (dialogue.run.run answer).run { store with commands := [] }

end DataStore

end WalletTopUp.Scenario
