import WalletTopUp.Number.FloatText

/-!
# Amounts of money

A `Decimal` is a sign and `magnitude / 10^scale` with a magnitude of at most 96 bits and a scale of at
most 28. The scale is part of the amount: `2.50` and `2.5` are equal in value and different as amounts.
So is the sign, which an amount keeps that was rounded until nothing was left of it. Comparison is by
exact value. A difference is exact when it fits; when it does not, places are given up one by one,
rounding to the nearest value with a half going to the even magnitude, and a difference whose whole
part does not fit does not exist.
-/

namespace WalletTopUp

/-- The magnitudes stay below this. -/
def Decimal.limit : Nat := Nat.pow 2 96

/-- The most places an amount can have. -/
def Decimal.maxScale : Nat := 28

/-- The amount `magnitude / 10^scale` with a sign. -/
structure Decimal where
  negative : Bool
  magnitude : Nat
  scale : Nat
  scale_le : scale ≤ Decimal.maxScale
  magnitude_lt : magnitude < Decimal.limit
  deriving DecidableEq

namespace Decimal

/-- The magnitude with its sign. -/
def coefficient (a : Decimal) : Int :=
  if a.negative then -(a.magnitude : Int) else a.magnitude

/-- The amount with these parts, if there is one. -/
def ofParts? (negative : Bool) (magnitude scale : Nat) : Option Decimal :=
  if h : scale ≤ maxScale ∧ magnitude < limit then some ⟨negative, magnitude, scale, h.1, h.2⟩
  else none

/-- The amount with this coefficient and scale, if there is one. -/
def of? (coefficient : Int) (scale : Nat) : Option Decimal :=
  ofParts? (coefficient < 0) coefficient.natAbs scale

def zero : Decimal := ⟨false, 0, 0, by decide, by decide⟩

instance : Inhabited Decimal := ⟨zero⟩

/-- The coefficient that the amount has at the scale `28`, where all amounts can be compared. -/
def units (a : Decimal) : Int :=
  a.coefficient * Int.pow 10 (maxScale - a.scale)

instance : LT Decimal := ⟨fun a b => a.units < b.units⟩

instance : LE Decimal := ⟨fun a b => a.units ≤ b.units⟩

instance (a b : Decimal) : Decidable (a < b) := inferInstanceAs (Decidable (a.units < b.units))

instance (a b : Decimal) : Decidable (a ≤ b) := inferInstanceAs (Decidable (a.units ≤ b.units))

def isPositive (a : Decimal) : Bool := 0 < a.coefficient

/-- Equal in value, whatever the scales. -/
def sameValue (a b : Decimal) : Bool := a.units == b.units

/-- Nothing, with either sign. -/
def isZero (a : Decimal) : Bool := a.magnitude == 0

def neg (a : Decimal) : Decimal := { a with negative := !a.negative }

/-- The quotient of an integer rounded to the nearest integer, a half to the even one. -/
def divideToEven (n : Int) (den : Nat) : Int :=
  let magnitude := Binary64.divideToEven n.natAbs den
  if n < 0 then -(magnitude : Int) else magnitude

/-- `coefficient / 10^scale` with as many of its places as fit: the fewest are given up. -/
def fit? (coefficient : Int) (scale : Nat) : Option Decimal :=
  (List.range (scale + 1)).findSome? fun dropped =>
    of? (divideToEven coefficient (Nat.pow 10 dropped)) (scale - dropped)

/-- The difference at the larger of the two scales, as far as it fits. Where nothing is taken away, or
something from nothing, the scale stays; of two zeros the second one is left. -/
def sub? (a b : Decimal) : Option Decimal :=
  if a.isZero then some (if b.isZero then b else b.neg)
  else if b.isZero then some a
  else
    let scale := Nat.max a.scale b.scale
    let coefficient :=
      a.coefficient * Int.pow 10 (scale - a.scale) - b.coefficient * Int.pow 10 (scale - b.scale)
    fit? coefficient scale

def isWhole (a : Decimal) : Bool :=
  a.coefficient % Int.pow 10 a.scale == 0

/-- The whole part, the places cut off. -/
def truncate (a : Decimal) : Int :=
  a.coefficient.tdiv (Int.pow 10 a.scale)

/-- The amount as a signed word of 64 bits, if its whole part is one. -/
def toInt64? (a : Decimal) : Option Int :=
  let n := a.truncate
  if -0x8000_0000_0000_0000 ≤ n ∧ n < 0x8000_0000_0000_0000 then some n else none

/-- The written form: the sign and all places of the scale, zeros included. -/
def text (a : Decimal) : String :=
  String.ofList <| Binary64.signText a.negative ++
    Binary64.withPoint (Binary64.digitsOf a.magnitude) a.scale

end Decimal

end WalletTopUp
