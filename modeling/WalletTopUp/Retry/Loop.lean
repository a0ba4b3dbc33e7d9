import WalletTopUp.Program
import WalletTopUp.Retry.Policy

/-!
# Trying again

`retry` makes a call, and after an error that is worth it waits and makes the call again, as often as
the policy allows. The last error is the result when nothing helps. A pause is asked for in full, but it
never takes longer than thirty years.
-/

namespace WalletTopUp.Retry

/-- What the loop asks for. -/
inductive Question where
  /-- One attempt. -/
  | call
  /-- Wait so many milliseconds. -/
  | pause (millis : Nat)
  /-- A random number for the jitter. -/
  | draw
  deriving DecidableEq, Repr

/-- The questions of a loop over calls with errors `ε` and results `α`. -/
abbrev interface (ε α : Type) : Interface where
  Question := Question
  Answer
    | .call => Except ε α
    | .pause _ => Unit
    | .draw => Fin 1000

/-- The longest pause, thirty years of 365 days, in milliseconds. -/
def longestPause : Nat := 30 * 365 * 24 * 60 * 60 * 1000

/-- How long a pause of so many milliseconds takes. -/
def pauseLength (millis : Nat) : Nat := min millis longestPause

variable {ε α : Type}

def call : Program (interface ε α) (Except ε α) :=
  Program.perform (I := interface ε α) .call

def pause (millis : Nat) : Program (interface ε α) Unit :=
  Program.perform (I := interface ε α) (.pause millis)

def draw : Program (interface ε α) (Fin 1000) :=
  Program.perform (I := interface ε α) .draw

/-- Wait as the policy says before retry number `attempt + 1`. -/
def wait (policy : RetryPolicy) (attempt : Nat) : Program (interface ε α) Unit := do
  let drawn ← if policy.jitter then draw else pure RetryPolicy.noDraw
  pause (policy.backoff attempt drawn)

/-- Attempts with `left` retries left. -/
def attempts (policy : RetryPolicy) (worthIt : ε → Bool) :
    (left : Nat) → Program (interface ε α) (Except ε α)
  | 0 => call
  | left + 1 => do
    match ← call with
    | .ok a => return .ok a
    | .error e =>
      if worthIt e then
        wait policy (policy.maxRetries - (left + 1))
        attempts policy worthIt left
      else return .error e

/-- Call until a call succeeds, an error is not worth another call, or the retries are used up. -/
def retry (policy : RetryPolicy) (worthIt : ε → Bool) : Program (interface ε α) (Except ε α) :=
  attempts policy worthIt policy.maxRetries

end WalletTopUp.Retry
