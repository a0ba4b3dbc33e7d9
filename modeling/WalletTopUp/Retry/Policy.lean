import WalletTopUp.Number.Binary64

/-!
# Waiting longer and longer

Between two attempts the service waits. The wait starts at a first length and is multiplied after every
attempt until it reaches a cap. It is computed in floating point and cut to whole milliseconds; with
jitter, up to a quarter is added.
-/

namespace WalletTopUp

/-- How often to try again and how long to wait. Lengths of time are in nanoseconds. -/
structure RetryPolicy where
  /-- Attempts after the first one. The service keeps an unsigned word of 32 bits, and no number that a wait or a
  result depends on leaves it. One more than the word may be too much for it, and in a checked build fail; that number
  is for the log alone, and logs are left out. -/
  maxRetries : Nat
  initialNanos : Nat
  capNanos : Nat
  multiplier : Binary64
  jitter : Bool
  deriving DecidableEq, Repr

namespace RetryPolicy

def nanosPerMilli : Nat := 1000000

/-- Three retries, from 100 milliseconds, doubled up to two seconds, without jitter. -/
def standard : RetryPolicy :=
  ⟨3, 100 * nanosPerMilli, 2000 * nanosPerMilli, .ofNat 2, false⟩

/-- For calls to a provider: two retries, from 500 milliseconds, doubled up to five seconds, with
jitter. -/
def forProviders : RetryPolicy :=
  ⟨2, 500 * nanosPerMilli, 5000 * nanosPerMilli, .ofNat 2, true⟩

def withoutRetries (p : RetryPolicy) : RetryPolicy := { p with maxRetries := 0 }

def initialMillis (p : RetryPolicy) : Nat := p.initialNanos / nanosPerMilli

def capMillis (p : RetryPolicy) : Nat := p.capNanos / nanosPerMilli

/-- An unsigned word of 32 bits taken as a signed one: the upper half is negative. -/
def signedWord (attempt : Nat) : Int :=
  if attempt < Nat.pow 2 31 then attempt else (attempt : Int) - Int.pow 2 32

/-- The wait before retry number `attempt + 1`, in milliseconds, without jitter. -/
def baseBackoff (p : RetryPolicy) (attempt : Nat) : Nat :=
  let grown := (Binary64.ofNat p.initialMillis).mul (p.multiplier.power (signedWord attempt))
  (grown.min (.ofNat p.capMillis)).toWord

/-- What stands for a random number of thousandths when none is drawn. -/
def noDraw : Fin 1000 := 0

def fraction (draw : Fin 1000) : Binary64 := (Binary64.ofNat draw.val).div (.ofNat 1000)

/-- What jitter adds to a wait: the drawn part of a quarter of it. -/
def jitterMillis (base : Nat) (draw : Fin 1000) : Nat :=
  (((Binary64.ofNat base).mul (.ofDecimal false 25 (-2))).mul (fraction draw)).toWord

/-- The wait before retry number `attempt + 1`, in milliseconds. -/
def backoff (p : RetryPolicy) (attempt : Nat) (draw : Fin 1000) : Nat :=
  let base := p.baseBackoff attempt
  if p.jitter then base + jitterMillis base draw else base

end RetryPolicy

end WalletTopUp
