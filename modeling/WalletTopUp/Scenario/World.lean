import WalletTopUp.Scenario.Wallet
import WalletTopUp.SideEffect
import WalletTopUp.Store.Cache
import WalletTopUp.Store.Ledger

/-!
# The world of a scenario

A scenario runs the service against collaborators in memory, step by step. The world is what lasts from step to
step. A step may bring trouble to some of the collaborators, and everything they are asked is put on record.
Time is measured in milliseconds and passes only in pauses.
-/

namespace WalletTopUp.Scenario

/-- What goes wrong during a step. -/
structure Trouble where
  findUser : Bool := false
  /-- The readings of accounts that fail, counted from one. -/
  readAccount : List Nat := []
  writeBalance : Bool := false
  /-- The ledger is left as it was and no account is written. -/
  noRow : Bool := false
  /-- The account is gone after it was written. -/
  vanish : Bool := false
  readCache : Bool := false
  writeCache : Bool := false
  /-- The deletions that fail. -/
  drops : SideEffect.Drop → Bool := fun _ => false
  /-- How many sendings fail before one succeeds. -/
  sends : Nat := 0
  /-- Another debit that follows the first one. -/
  race : Option Decimal := none

/-- Something that a collaborator was asked. -/
inductive Call where
  | findUser (username : String)
  | readAccount (userId : Json.Word)
  | writeBalance (id : String) (balance : Decimal)
  | orderTopUp (method : PaymentMethod)
  | walletBalance (method : PaymentMethod)
  | readCache (key : String)
  | writeCache (key : String) (minutes : Nat)

/-- What a provider with prepared answers was asked. -/
inductive ProviderCall where
  | topUp (method : PaymentMethod) (order : TopUpOrder)
  | balance (method : PaymentMethod) (walletId requestId : String)

/-- A request that reached a server. -/
inductive Sent where
  | auth (request : AuthRequest)
  | api (request : ApiRequest)

/-- What was observed during a step. -/
structure Record where
  calls : List Call := []
  providerCalls : List ProviderCall := []
  /-- Requests with the place of the provider that got them. -/
  sent : List (Nat × Sent) := []
  drops : List SideEffect.Drop := []
  events : List Event := []
  /-- When events were sent. -/
  attempts : List Nat := []
  counts : List (Metric × Nat) := []
  /-- Transactions that were handed to the side effects. -/
  dispatched : List (String × Transaction) := []

/-- The collaborators and what they hold. -/
structure World where
  users : List User
  ledger : Ledger
  cache : CacheStore
  wallets : List Wallet
  /-- Events that were accepted. -/
  delivered : Nat := 0
  /-- Random identifiers that were drawn. -/
  drawn : Nat := 0
  /-- Reference ids in the order in which providers first got them. -/
  references : List String := []
  /-- The time on the clock. -/
  now : Instant

/-- A step on its way. -/
structure State where
  world : World
  trouble : Trouble := {}
  clock : Nat := 0
  accountReads : Nat := 0
  sendAttempts : Nat := 0
  record : Record := {}

/-- Something that happens in a step. -/
abbrev Happening (α : Type) := StateM State α

def change (f : World → World) : Happening Unit :=
  modify fun s => { s with world := f s.world }

def note (f : Record → Record) : Happening Unit :=
  modify fun s => { s with record := f s.record }

def noteCall (call : Call) : Happening Unit :=
  note fun r => { r with calls := r.calls ++ [call] }

def noteCount (metric : Metric) (increment : Nat) : Happening Unit :=
  note fun r => { r with counts := r.counts ++ [(metric, increment)] }

/-- Let the time of a pause pass. -/
def pass (millis : Nat) : Happening Unit :=
  modify fun s => { s with clock := s.clock + Retry.pauseLength millis }

/-- The bits that all random identifiers of a scenario share. -/
def freshBits : BitVec 128 := 0x7b3e4f6a9c8dd5c1f0a2e37b#128

def freshUuid (n : Nat) : Uuid :=
  .version4 (freshBits ||| (BitVec.ofNat 128 (0xa1b2c3d4 + n) <<< 96))

/-- Draw a random identifier. -/
def draw : Happening Uuid := do
  let n := (← get).world.drawn
  change fun w => { w with drawn := n + 1 }
  return freshUuid n

/-- A provider has got a reference id. -/
def noteReference (referenceId : String) : Happening Unit :=
  change fun w =>
    if w.references.contains referenceId then w
    else { w with references := w.references ++ [referenceId] }

def connectionReset : Fault := .database (.of "connection reset")

def cacheUnavailable : String := "cache unavailable"

end WalletTopUp.Scenario
