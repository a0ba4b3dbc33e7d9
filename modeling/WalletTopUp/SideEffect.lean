import WalletTopUp.Service
import WalletTopUp.Event

/-!
# After a top-up

A completed top-up makes entries of the cache stale and is announced as an event. The tasks are
independent: each is tried whatever becomes of the others, and a failure is only counted.
-/

namespace WalletTopUp

namespace SideEffect

/-- One step of a task. -/
inductive Question where
  | deleteKey (key : String)
  | deletePattern (pattern : String)
  | send (event : Event)
  /-- Wait so many milliseconds. -/
  | pause (millis : Nat)
  /-- A random number for the jitter. -/
  | draw
  /-- Count several at once. -/
  | count (metric : Metric) (increment : Nat)

@[reducible] def Answer : Question → Type
  /- Whether the key was there. -/
  | .deleteKey _ => Except String Bool
  /- How many keys were deleted. -/
  | .deletePattern _ => Except String Nat
  | .send _ => Except String Delivery
  | .pause _ => Unit
  | .draw => Fin 1000
  | .count _ _ => Unit

end SideEffect

/-- The steps of the tasks after a top-up. -/
abbrev SideEffect : Interface := ⟨SideEffect.Question, SideEffect.Answer⟩

namespace SideEffect

def step (question : Question) : Program SideEffect (Answer question) :=
  Program.perform (I := SideEffect) question

/-! ## Publishing -/

def publishOnce (p : Publisher) (t : Transaction) :
    Program SideEffect (Except String Delivery) :=
  step (.send (t.event p.topic))

def sendingStep (p : Publisher) (t : Transaction) :
    (q : Retry.Question) → Program SideEffect ((Retry.interface String Delivery).Answer q)
  | .call => publishOnce p t
  | .pause millis => step (.pause millis)
  | .draw => step .draw

/-- Send the event of a transaction, again after every failure while the policy allows. -/
def publish (p : Publisher) (t : Transaction) : Program SideEffect (Except String Delivery) := do
  let loop : Program (Retry.interface String Delivery) (Except String Delivery) :=
    Retry.retry p.retry fun _ => true
  let result ← loop.interpret (sendingStep p t)
  step (.count (.events result.isOk) 1)
  return result

/-! ## Tasks -/

/-- Entries of the cache that are to be dropped. -/
inductive Drop where
  | pattern (pattern : String)
  | key (key : String)
  deriving DecidableEq, Repr

/-- What is to be done after a top-up. -/
inductive Task where
  | drop (entries : Drop)
  | announce
  deriving DecidableEq, Repr

/-- How a task ended. -/
inductive Outcome where
  | removed (keys : Nat)
  | failed
  | announced (delivered : Bool)
  deriving DecidableEq, Repr

def userDrops (username : String) : List Drop :=
  [.key (CacheKey.account username), .key (CacheKey.balance username)]

/-- The entries that depend on any transaction. -/
def sharedDrops : List Drop :=
  [.pattern CacheKey.transactionListPattern, .pattern CacheKey.transactionPattern,
    .key CacheKey.transactionCount]

def tasks (username : String) : List Task :=
  (sharedDrops ++ userDrops username).map .drop ++ [.announce]

def runDrop : Drop → Program SideEffect Outcome
  | .pattern pattern => do
    match ← step (.deletePattern pattern) with
    | .ok n => return .removed n
    | .error _ => return .failed
  | .key key => do
    match ← step (.deleteKey key) with
    | .ok found => return .removed found.toNat
    | .error _ => return .failed

def runTask (p : Publisher) (t : Transaction) : Task → Program SideEffect Outcome
  | .drop entries => runDrop entries
  | .announce => do return .announced (← publish p t).isOk

/-- What became of the tasks. -/
structure Report where
  keysRemoved : Nat
  failedTasks : Nat
  eventPublished : Bool
  deriving DecidableEq, Repr

def Report.empty : Report := ⟨0, 0, false⟩

def Report.add (r : Report) : Outcome → Report
  | .removed n => { r with keysRemoved := r.keysRemoved + n }
  | .failed => { r with failedTasks := r.failedTasks + 1 }
  | .announced delivered => { r with eventPublished := r.eventPublished || delivered }

def Report.ofOutcomes (outcomes : List Outcome) : Report :=
  outcomes.foldl Report.add Report.empty

/-- Do all tasks after a top-up of a user and count the entries that were dropped. -/
def afterTopUp (p : Publisher) (username : String) (t : Transaction) :
    Program SideEffect Report := do
  let report := Report.ofOutcomes (← (tasks username).mapM (runTask p t))
  step (.count .keysInvalidated report.keysRemoved)
  return report

def dropUserEntries (username : String) : Program SideEffect Report := do
  return Report.ofOutcomes (← (userDrops username).mapM runDrop)

end SideEffect

end WalletTopUp
