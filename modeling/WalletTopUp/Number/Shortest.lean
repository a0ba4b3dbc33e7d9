import WalletTopUp.Number.Binary64

/-!
# The fewest digits that read back

`shortest` finds, for a positive number of the format, the decimal `digits · 10^exponent` with the
fewest digits among those that lie in the number's rounding interval, and of these the nearest. The
interval includes its ends when the significand is even. On the grid of each digit count only the
two neighbours of the number have to be tried. When both are in the interval and equally near,
`Tie` decides.
-/

namespace WalletTopUp.Shortest

/-- Which of two equally near neighbours is taken. -/
inductive Tie where
  | up
  | even
  deriving DecidableEq, Repr

/-- The rounding interval of a number in quarters of a unit: its lower end, the number and its upper
end, and whether the ends belong to it. -/
structure Interval where
  low : Nat
  value : Nat
  high : Nat
  closed : Bool

/-- Half the way to the number below and half the way to the number above. -/
def interval (significand grade : Nat) : Interval :=
  let unit := Nat.pow 2 grade
  let value := 4 * significand * unit
  let below := if significand = Nat.pow 2 52 ∧ grade ≠ 0 then unit else 2 * unit
  ⟨value - below, value, value + 2 * unit, significand % 2 = 0⟩

/-- A fraction to be compared with `digits · 10^exponent`: `scale exponent (num, den)` is the
fraction divided by the power of ten. -/
def scale (exponent : Int) (num den : Nat) : Nat × Nat :=
  if 0 ≤ exponent then (num, den * Nat.pow 10 exponent.toNat)
  else (num * Nat.pow 10 (-exponent).toNat, den)

/-- Quarters of a unit in one. -/
def quartersPerOne : Nat := 4 * Binary64.unitsPerOne

/-- `digits · 10^exponent` lies in the interval. -/
def Interval.contains (i : Interval) (digits : Nat) (exponent : Int) : Bool :=
  let (low, den) := scale exponent i.low quartersPerOne
  let (high, _) := scale exponent i.high quartersPerOne
  let x := digits * den
  if i.closed then low ≤ x && x ≤ high else low < x && x < high

/-- The exponent of the leading decimal digit of a positive number. -/
def leadingExponent (quarters : Nat) : Int :=
  if quartersPerOne ≤ quarters then
    ((Nat.toDigits 10 (quarters / quartersPerOne)).length : Int) - 1
  else
    match (List.range 330).find? fun j => quartersPerOne ≤ quarters * Nat.pow 10 j with
    | some j => -(j : Int)
    | none => -330

/-- The nearer of the two neighbours on the grid `10^exponent` that lie in the interval. -/
def onGrid (tie : Tie) (i : Interval) (exponent : Int) : Option Nat :=
  let (num, den) := scale exponent i.value quartersPerOne
  let below := num / den
  let twice := 2 * (num % den)
  let lowIn := i.contains below exponent
  let highIn := i.contains (below + 1) exponent
  if num % den = 0 then some below
  else if lowIn && highIn then
    if twice < den then some below
    else if den < twice then some (below + 1)
    else match tie with
      | .up => some (below + 1)
      | .even => some (if below % 2 = 0 then below else below + 1)
  else if lowIn then some below
  else if highIn then some (below + 1)
  else none

/-- The digits and the exponent of the shortest decimal of a positive finite number. Seventeen
digits always suffice. A number just below a power of ten may round up to it on the first grid,
which then has a digit too many. -/
def shortest (tie : Tie) (significand grade : Nat) : Nat × Int :=
  let i := interval significand grade
  let lead := leadingExponent i.value
  let at? (n : Nat) : Option (Nat × Int) :=
    let exponent := lead - n
    (onGrid tie i exponent).map (·, exponent)
  let (digits, exponent) := ((List.range 18).findSome? at?).getD (0, 0)
  if digits % 10 = 0 then (digits / 10, exponent + 1) else (digits, exponent)

end WalletTopUp.Shortest
