import WalletTopUp.Money.Decimal

/-!
# Amounts and floating point

Providers exchange amounts as floating point. `Decimal.toBinary64` adds the whole part and the
fraction and rounds away the error of that sum at the places of the amount. `Decimal.ofBinary64?`
expands the number in 96 bits, keeps the 15 or 16 digits that the format guarantees and drops the
zeros at the end. The sign of the number stays, also where nothing else is left of it.
-/

namespace WalletTopUp.Decimal

/-- The nearest number to the whole part plus the nearest to the fraction, rounded at the scale. -/
def toBinary64 (a : Decimal) : Binary64 :=
  if a.scale = 0 then Binary64.ofInt a.coefficient
  else
    let precision := Nat.pow 10 a.scale
    let whole := Binary64.ofNat (a.magnitude / precision)
    let fraction := (Binary64.ofNat (a.magnitude % precision)).div (Binary64.ofNat precision)
    let value :=
      if fraction.isZero then whole
      else
        let p := (Binary64.ofNat 10).power a.scale
        (((whole.add fraction).mul p).roundAway).div p
    if a.negative then value.neg else value

/-- `bits / (2^n · 10^places)` as a coefficient and its places: each factor of one half is taken from an even
coefficient, else is `5/10`, and where five times the coefficient does not fit the lowest bit is given up. -/
def halve : (n bits places : Nat) → Nat × Nat
  | 0, bits, places => (bits, places)
  | n + 1, bits, places =>
    if bits % 2 = 0 then halve n (bits / 2) places
    else if 5 * bits < limit then halve n (5 * bits) (places + 1)
    else halve n (bits / 2) places

/-- `bits · 2^n · 10^tens` as a coefficient and a power of ten: each factor of two doubles the coefficient, or is
`10/5` where twice the coefficient does not fit. -/
def double : (n bits tens : Nat) → Nat × Nat
  | 0, bits, tens => (bits, tens)
  | n + 1, bits, tens =>
    if bits < limit / 2 then double n (2 * bits) tens else double n (bits / 5) (tens + 1)

/-- A power of ten is multiplied in; it has to fit. -/
def absorbTens : (tens bits : Nat) → Option Nat
  | 0, bits => some bits
  | tens + 1, bits => if 10 * bits < limit then absorbTens tens (10 * bits) else none

/-- One digit less, rounded half up. -/
def dropDigit (bits : Nat) : Nat :=
  bits / 10 + (if 5 ≤ bits % 10 then 1 else 0)

/-- Digits beyond the largest scale are dropped; a coefficient of a single one vanishes. -/
def dropBeyondScale : (places bits : Nat) → Nat × Nat
  | 0, bits => (bits, 0)
  | places + 1, bits =>
    if places + 1 ≤ maxScale then (bits, places + 1)
    else if bits / 10 = 0 then (0, 0)
    else dropBeyondScale places (dropDigit bits)

/-- Digits are dropped as long as `more` asks for it and there are places left. -/
def dropWhile (more : Nat → Bool) : (places bits : Nat) → Nat × Nat
  | 0, bits => (bits, 0)
  | places + 1, bits =>
    if more bits then dropWhile more places (dropDigit bits) else (bits, places + 1)

/-- The coefficient gets no more than 52 bits, as far as there are places to give up. -/
def dropExcess : (places bits : Nat) → Nat × Nat := dropWhile fun bits => Nat.pow 2 52 ≤ bits

/-- The zeros at the end go. -/
def dropZeros : (places bits : Nat) → Nat × Nat := dropWhile fun bits => bits % 10 = 0

/-- The amount that a floating-point number stands for, if it is in range. -/
def ofBinary64? : Binary64 → Option Decimal
  | .nan => none
  | .infinite _ => none
  | .finite negative significand grade =>
    if grade < 1074 then
      let (bits, places) := halve (1074 - grade) significand 0
      let (bits, places) := dropBeyondScale places bits
      let (bits, places) := dropExcess places bits
      let (bits, places) := dropZeros places bits
      ofParts? negative bits places
    else do
      let (bits, tens) := double (grade - 1074) significand 0
      ofParts? negative (← absorbTens tens bits) 0

end WalletTopUp.Decimal
