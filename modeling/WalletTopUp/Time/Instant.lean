import WalletTopUp.Time.Date

/-!
# Instants

An `Instant` is a day, a second of that day and a nanosecond, in UTC. In the last second of a minute
the nanoseconds may run on for a second more: that is a leap second.
-/

namespace WalletTopUp

def nanosPerSecond : Nat := 1000000000

/-- A second of the day and a nanosecond that exist together. -/
def Instant.IsTime (second nano : Nat) : Prop :=
  second < 86400 ∧ nano < 2 * nanosPerSecond ∧ (nanosPerSecond ≤ nano → second % 60 = 59)

instance (second nano : Nat) : Decidable (Instant.IsTime second nano) := by
  unfold Instant.IsTime
  infer_instance

/-- A moment in UTC. -/
structure Instant where
  date : Date
  second : Nat
  nano : Nat
  isTime : Instant.IsTime second nano
  deriving DecidableEq

namespace Instant

/-- The moment with this second and nanosecond on the day, if there is one. -/
def of? (date : Date) (second nano : Nat) : Option Instant :=
  if h : IsTime second nano then some ⟨date, second, nano, h⟩ else none

/-- Midnight at the start of 1970. -/
def epoch : Instant := ⟨.epoch, 0, 0, by decide⟩

instance : Inhabited Instant := ⟨epoch⟩

/-- Whole seconds since the start of 1970, leap seconds not counted. -/
def epochSeconds (t : Instant) : Int :=
  t.date.dayNumber * 86400 + t.second

/-- Whole milliseconds since the start of 1970. A leap second has the milliseconds from 1000 on. -/
def epochMillis (t : Instant) : Int :=
  t.epochSeconds * 1000 + (t.nano / 1000000 : Nat)

/-- The moment so many nanoseconds after the start of 1970, if the calendar reaches it. -/
def ofEpochNanos? (n : Int) : Option Instant := do
  let seconds := Int.fdiv n nanosPerSecond
  let date ← Date.ofDayNumber? (Int.fdiv seconds 86400)
  of? date (Int.fmod seconds 86400).toNat (Int.fmod n nanosPerSecond).toNat

/-- The moment `seconds` earlier, for less than a day in either direction; a leap second stays one. -/
def earlier? (t : Instant) (seconds : Int) : Option Instant := do
  let moved : Int := t.second - seconds
  let date ←
    if moved < 0 then t.date.previous?
    else if 86400 ≤ moved then t.date.next?
    else some t.date
  of? date (Int.fmod moved 86400).toNat t.nano

end Instant

end WalletTopUp
