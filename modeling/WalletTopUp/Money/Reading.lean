import WalletTopUp.Money.Decimal

/-!
# Reading an amount

A plain amount is an optional sign, digits and at most one point; after the first digit underscores
may stand between them. Digits after the point that no longer fit, be it for the scale or for the
magnitude, are dropped and the first of them rounds half up. As long as the magnitude is narrow, an
underscore in the place of that digit counts as a zero; later it is passed over. Whole digits that do
not fit are an error. After `e` or `E` an amount may have an exponent; places that are too many because
of it are rounded off, a half away from zero.
-/

namespace WalletTopUp.Decimal

/-- What has been read of an amount: the magnitude and the places so far, whether the point and a digit
have been seen, and whether the magnitude has ceased to be narrow. -/
structure Progress where
  magnitude : Nat
  places : Nat
  point : Bool
  digit : Bool
  wide : Bool

def Progress.start : Progress := ⟨0, 0, false, false, false⟩

/-- A narrow magnitude lies below this: one more digit leaves it below `2^64` with room to spare. -/
def narrowLimit : Nat := (Nat.pow 2 64 - 1) / 10 - 255

/-- There is no place left after the point. -/
def Progress.isFull (p : Progress) : Bool := p.point && maxScale ≤ p.places

/-- One digit more, which makes the magnitude `next`. -/
def Progress.grow (p : Progress) (next : Nat) : Progress :=
  let q := { p with magnitude := next, places := if p.point then p.places + 1 else 0, digit := true }
  { q with wide := p.wide || (narrowLimit ≤ next && !q.isFull) }

def digitValue? (c : Char) : Option Nat :=
  if c.isDigit then some (c.toNat - '0'.toNat) else none

/-- The digit that the first character beyond the last place stands for. -/
def droppedDigit? (c : Char) : Option Nat :=
  if c = '_' ∨ c = '.' then some 0 else digitValue? c

/-- The first dropped digit raises the magnitude from five up; a magnitude that becomes too large gives
up a place. -/
def roundUp (magnitude places digit : Nat) : Option (Nat × Nat) :=
  if digit < 5 then some (magnitude, places)
  else if magnitude + 1 < limit then some (magnitude + 1, places)
  else if places = 0 then none
  else some ((magnitude + 5) / 10, places - 1)

/-- The amount ends before `c`: it is rounded, and only digits and underscores may follow. -/
def Progress.roundOff (p : Progress) (c : Char) (rest : List Char) : Option (Nat × Nat) := do
  let digit ← droppedDigit? c
  if rest.all fun c => c.isDigit || c == '_' then roundUp p.magnitude p.places digit else none

/-- Magnitude and places of an unsigned amount. -/
def scan : List Char → Progress → Option (Nat × Nat)
  | [], p => if p.digit then some (p.magnitude, p.places) else none
  | c :: rest, p =>
    if p.isFull && !p.wide then p.roundOff c rest
    else
      match digitValue? c with
      | some d =>
        let next := p.magnitude * 10 + d
        if next < limit ∧ !p.isFull then scan rest (p.grow next)
        else if p.point then p.roundOff c rest
        else none
      | none =>
        if c = '.' ∧ !p.point then scan rest { p with point := true }
        else if c = '_' ∧ p.digit then scan rest p
        else none

/-- A plain amount; nothing has no sign. -/
def ofChars? (cs : List Char) : Option Decimal := do
  let (negative, rest) := match cs with
    | '-' :: rest => (true, rest)
    | '+' :: rest => (false, rest)
    | rest => (false, rest)
  let (magnitude, places) ← scan rest .start
  ofParts? (negative && magnitude != 0) magnitude places

/-- An unsigned word of 32 bits, with an optional plus sign. -/
def exponent? (cs : List Char) : Option Nat :=
  let digits := match cs with
    | '+' :: rest => rest
    | rest => rest
  if digits.isEmpty || !digits.all Char.isDigit then none
  else
    let n := Nat.ofDigitChars 10 digits 0
    if n < Nat.pow 2 32 then some n else none

def isExponentMark (c : Char) : Bool := c == 'e' || c == 'E'

/-- A magnitude with the last `dropped` digits rounded off, a half up. -/
def dropDigits (magnitude dropped : Nat) : Nat :=
  (magnitude + Nat.pow 10 dropped / 2) / Nat.pow 10 dropped

/-- The amount divided by `10^n`: it has `n` more places, of which those beyond the largest scale are
rounded off. -/
def shiftDown? (a : Decimal) (n : Nat) : Option Decimal :=
  let places := a.scale + n
  ofParts? a.negative (dropDigits a.magnitude (places - maxScale)) (min places maxScale)

/-- The amount times `10^n`: it has `n` places less, and beyond that more digits. -/
def shiftUp? (a : Decimal) (n : Nat) : Option Decimal :=
  if n ≤ a.scale then ofParts? a.negative a.magnitude (a.scale - n)
  else of? (a.coefficient * Int.pow 10 (n - a.scale)) 0

/-- The amount times the power of ten with a given exponent, which is at most 28 either way. -/
def shift? (a : Decimal) (exponent : List Char) : Option Decimal := do
  let (down, digits) := match exponent with
    | '-' :: digits => (true, digits)
    | '+' :: digits => (false, digits)
    | digits => (false, digits)
  let n ← exponent? digits
  if maxScale < n then none
  else if down then a.shiftDown? n
  else a.shiftUp? n

/-- The amount that a text writes, with or without an exponent. -/
def ofText? (s : String) : Option Decimal :=
  let base := s.toList.takeWhile (!isExponentMark ·)
  match s.toList.dropWhile (!isExponentMark ·) with
  | [] => ofChars? base
  | _ :: exponent => (ofChars? base).bind (·.shift? exponent)

/-- The amount of a floating-point number, by way of its digits. -/
def ofDigitsOf? (x : Binary64) : Option Decimal :=
  ofText? x.positional

end WalletTopUp.Decimal
