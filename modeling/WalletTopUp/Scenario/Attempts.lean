import WalletTopUp.Retry.Loop

/-!
# A retried call of a scenario

A call that is tried again and again comes to the ends of a list, in turn; the last one repeats. An end is a
text: one that starts with `ok` is a success, and an error that starts with `fatal` is not worth another call.
Time is measured in milliseconds and passes only in pauses.
-/

namespace WalletTopUp.Scenario

/-- The calls that were made and the time that has passed. -/
structure Attempts where
  times : List Nat := []
  clock : Nat := 0

namespace Attempts

/-- How a call ends that is made after `made` others. -/
def outcome (ends : List String) (made : Nat) : Except String String :=
  let text := (ends[made]? <|> ends.getLast?).getD ""
  if text.startsWith "ok" then .ok text else .error text

def answer (ends : List String) :
    (q : Retry.Question) → StateM Attempts ((Retry.interface String String).Answer q)
  | .call => do
    let s ← get
    set { s with times := s.times ++ [s.clock] }
    return outcome ends s.times.length
  | .pause millis => modify fun s => { s with clock := s.clock + Retry.pauseLength millis }
  | .draw => return RetryPolicy.noDraw

def run (policy : RetryPolicy) (ends : List String) : Except String String × Attempts :=
  ((Retry.retry policy fun e : String => !e.startsWith "fatal").run (answer ends)).run {}

end Attempts

end WalletTopUp.Scenario
