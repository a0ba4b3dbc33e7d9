import WalletTopUp.Json.Source
import WalletTopUp.Number.FloatText

/-!
# JSON numbers

A number without fraction and exponent that fits a word of 64 bits, signed or unsigned, is an
integer. Every other number is floating point: the digits that fit an unsigned word are the
significand, whole digits beyond them raise the exponent, fraction digits beyond them are ignored,
and the significand is scaled by powers of ten of at most `10^308`, each step rounded. A number too
large for the format is malformed.
-/

namespace WalletTopUp.Json

/-- An integer of 64 bits, signed or unsigned, or a floating-point number. -/
inductive Number where
  | integer (n : Int)
  | float (x : Binary64)
  deriving DecidableEq, Repr

/-- The parts of a number as they are written. -/
structure Literal where
  negative : Bool
  whole : List Char
  fraction : Option (List Char)
  exponent : Option (Bool × List Char)
  deriving DecidableEq, Repr

def digitRun : Source → List Char × Source
  | .ok c :: rest =>
    if c.isDigit then
      let (cs, after) := digitRun rest
      (c :: cs, after)
    else ([], .ok c :: rest)
  | src => ([], src)

/-- At least one digit has to come next. -/
def someDigits (src : Source) : Except Failure (List Char × Source) :=
  match src, digitRun src with
  | [], _ => .error .truncated
  | _, ([], _) => .error .malformed
  | _, run => .ok run

/-- The digits before the point: a zero stands alone. -/
def wholeDigits (src : Source) : Except Failure (List Char × Source) := do
  let (digits, rest) ← someDigits src
  match digits with
  | '0' :: _ :: _ => .error .malformed
  | _ => .ok (digits, rest)

/-- The digits after a point, if there is one. -/
def fractionDigits : Source → Except Failure (Option (List Char) × Source)
  | .ok '.' :: rest => (someDigits rest).map fun (digits, rest) => (some digits, rest)
  | src => .ok (none, src)

/-- The sign of an exponent, `true` for a negative one. -/
def exponentSign : Source → Bool × Source
  | .ok '+' :: rest => (false, rest)
  | .ok '-' :: rest => (true, rest)
  | src => (false, src)

/-- The sign and the digits of an exponent, if there is one. -/
def exponentDigits : Source → Except Failure (Option (Bool × List Char) × Source)
  | .ok c :: rest =>
    if c = 'e' ∨ c = 'E' then
      let (negative, rest) := exponentSign rest
      (someDigits rest).map fun (digits, rest) => (some (negative, digits), rest)
    else .ok (none, .ok c :: rest)
  | src => .ok (none, src)

def numberSign : Source → Bool × Source
  | .ok '-' :: rest => (true, rest)
  | src => (false, src)

def readLiteral (src : Source) : Except Failure (Literal × Source) := do
  let (negative, src) := numberSign src
  let (whole, src) ← wholeDigits src
  let (fraction, src) ← fractionDigits src
  let (exponent, src) ← exponentDigits src
  .ok (⟨negative, whole, fraction, exponent⟩, src)

/-- Take in digits as long as the significand fits an unsigned word; the digits left over. -/
def absorb (significand : Nat) : List Char → Nat × List Char
  | [] => (significand, [])
  | c :: rest =>
    let next := significand * 10 + (c.toNat - '0'.toNat)
    if next < Nat.pow 2 64 then absorb next rest else (significand, c :: rest)

def largestPower : Nat := 308

/-- Scale by a power of ten; `none` when the result is infinite. -/
def scaleUp (x : Binary64) (exponent : Nat) : Option Binary64 :=
  if exponent ≤ largestPower then
    match x.mul (Binary64.ofDecimal false 1 exponent) with
    | .infinite _ => none
    | y => some y
  else if x.isZero then some x
  else none

/-- Divide by a power of ten, in steps of `10^308`, until nothing is left. -/
def scaleDown : (steps : Nat) → Binary64 → (exponent : Nat) → Binary64
  | 0, x, _ => x
  | steps + 1, x, exponent =>
    if exponent ≤ largestPower then x.div (Binary64.ofDecimal false 1 exponent)
    else if x.isZero then x
    else scaleDown steps (x.div (Binary64.ofDecimal false 1 largestPower)) (exponent - largestPower)

/-- `significand · 10^exponent`; `none` when it is too large. -/
def scaled (significand : Nat) (exponent : Int) : Option Binary64 :=
  let x := Binary64.ofNat significand
  if 0 ≤ exponent then scaleUp x exponent.toNat
  else some (scaleDown 4 x exponent.natAbs)

/-- The exponent as written, and whether its digits fit a signed word of 32 bits. -/
def writtenExponent : Option (Bool × List Char) → Int × Bool
  | none => (0, true)
  | some (negative, digits) =>
    let n := Nat.ofDigitChars 10 digits 0
    (if negative then -(n : Int) else n, n < Nat.pow 2 31)

/-- The floating-point number of a literal, without its sign. -/
def Literal.magnitude? (l : Literal) : Option Binary64 :=
  let (significand, beyond) := absorb 0 l.whole
  let fraction := l.fraction.getD []
  let (significand, ignored) := absorb significand fraction
  let places := fraction.length - ignored.length
  let (exponent, fits) := writtenExponent l.exponent
  if fits then scaled significand (beyond.length - places + exponent)
  else if significand ≠ 0 ∧ 0 < exponent then none
  else some (Binary64.zero false)

def Literal.integer? (l : Literal) : Option Int :=
  if l.fraction.isSome || l.exponent.isSome then none
  else
    let n := Nat.ofDigitChars 10 l.whole 0
    if l.negative then (if 0 < n ∧ n ≤ Nat.pow 2 63 then some (-(n : Int)) else none)
    else if n < Nat.pow 2 64 then some n
    else none

/-- The number that a literal stands for; `none` when it is too large. -/
def Literal.value? (l : Literal) : Option Number :=
  match l.integer? with
  | some n => some (.integer n)
  | none =>
    l.magnitude?.map fun x => .float (if l.negative then x.neg else x)

def readNumber (src : Source) : Except Failure (Number × Source) := do
  let (l, rest) ← readLiteral src
  match l.value? with
  | some n => .ok (n, rest)
  | none => .error .malformed

def Number.chars : Number → List Char
  | integer n => Binary64.signText (n < 0) ++ Binary64.digitsOf n.natAbs
  | float x => x.compact.toList

end WalletTopUp.Json
