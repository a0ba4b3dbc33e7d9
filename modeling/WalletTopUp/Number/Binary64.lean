/-!
# Binary floating point, exactly

A finite `Binary64` is `±significand · 2^grade` units, one unit being `2^-1074`, the smallest
positive number of the format. Every operation computes the exact rational result in natural numbers
and rounds once, to the nearest value of the format, a tie going to the even significand. So the
laws of the operations are laws of natural numbers.
-/

namespace WalletTopUp

/-- How many units make one. -/
def Binary64.unitsPerOne : Nat := Nat.pow 2 1074

/-- A number of the IEEE 754 format with 53 significant bits, an infinity or not a number. A finite
one has `significand < 2^53`, and `2^52 ≤ significand` unless `grade = 0`. -/
inductive Binary64 where
  | nan
  | infinite (negative : Bool)
  | finite (negative : Bool) (significand grade : Nat)
  deriving DecidableEq, Repr, Inhabited

namespace Binary64

/-- The quotient rounded to the nearest natural number, a half to the even one. -/
def divideToEven (num den : Nat) : Nat :=
  let q := num / den
  let r := num % den
  if 2 * r < den then q
  else if den < 2 * r then q + 1
  else if q % 2 = 0 then q else q + 1

/-- The grade in which a number of `units` has its 53 leading bits. -/
def gradeOf (units : Nat) : Nat :=
  units.log2 - 52

/-- `±num / den` rounded to the format; `den` is positive. -/
def round (negative : Bool) (num den : Nat) : Binary64 :=
  let scaled := num * unitsPerOne
  let grade := gradeOf (scaled / den)
  let significand := divideToEven scaled (den * Nat.pow 2 grade)
  let (significand, grade) :=
    if significand = Nat.pow 2 53 then (Nat.pow 2 52, grade + 1) else (significand, grade)
  if 2045 < grade then infinite negative else finite negative significand grade

def zero (negative : Bool) : Binary64 := finite negative 0 0

def ofNat (n : Nat) : Binary64 := round false n 1

def ofInt (n : Int) : Binary64 := round (n < 0) n.natAbs 1

/-- The number nearest to `±digits · 10^exponent`. -/
def ofDecimal (negative : Bool) (digits : Nat) (exponent : Int) : Binary64 :=
  if 0 ≤ exponent then round negative (digits * Nat.pow 10 exponent.toNat) 1
  else round negative digits (Nat.pow 10 (-exponent).toNat)

def neg : Binary64 → Binary64
  | nan => nan
  | infinite s => infinite !s
  | finite s m g => finite (!s) m g

/-- The number of units of a finite number, without its sign. -/
def units (significand grade : Nat) : Nat := significand * Nat.pow 2 grade

/-- The number of units of a finite number, with its sign. -/
def signedUnits (negative : Bool) (significand grade : Nat) : Int :=
  if negative then -(units significand grade : Int) else units significand grade

def mul : Binary64 → Binary64 → Binary64
  | nan, _ => nan
  | _, nan => nan
  | infinite s, infinite t => infinite (s != t)
  | infinite s, finite t m _ => if m = 0 then nan else infinite (s != t)
  | finite s m _, infinite t => if m = 0 then nan else infinite (s != t)
  | finite s m g, finite t n h =>
    round (s != t) (units m g * units n h) (unitsPerOne * unitsPerOne)

def div : Binary64 → Binary64 → Binary64
  | nan, _ => nan
  | _, nan => nan
  | infinite _, infinite _ => nan
  | infinite s, finite t _ _ => infinite (s != t)
  | finite s _ _, infinite t => zero (s != t)
  | finite s m g, finite t n h =>
    if n = 0 then (if m = 0 then nan else infinite (s != t))
    else round (s != t) (units m g) (units n h)

def add : Binary64 → Binary64 → Binary64
  | nan, _ => nan
  | _, nan => nan
  | infinite s, infinite t => if s = t then infinite s else nan
  | infinite s, finite _ _ _ => infinite s
  | finite _ _ _, infinite t => infinite t
  | finite s m g, finite t n h =>
    let sum := signedUnits s m g + signedUnits t n h
    if sum = 0 then zero (s && t) else round (sum < 0) sum.natAbs unitsPerOne

/-- Strictly below; nothing is below or above what is not a number. -/
def lt : Binary64 → Binary64 → Bool
  | nan, _ => false
  | _, nan => false
  | infinite s, infinite t => s && !t
  | infinite s, finite _ _ _ => s
  | finite _ _ _, infinite t => !t
  | finite s m g, finite t n h => signedUnits s m g < signedUnits t n h

/-- The smaller of two numbers; one that is not a number is passed over. -/
def min (a b : Binary64) : Binary64 :=
  match a, b with
  | nan, b => b
  | a, nan => a
  | a, b => if b.lt a then b else a

def isZero : Binary64 → Bool
  | finite _ 0 _ => true
  | _ => false

/-- One repetition of squaring: `m` gathers the powers of `a` that the bits of `n` call for. -/
def powerLoop (m a : Binary64) (n : Nat) : Binary64 :=
  let m := if n % 2 = 1 then m.mul a else m
  if h : n / 2 = 0 then m else powerLoop m (a.mul a) (n / 2)
termination_by n
decreasing_by omega

/-- `a` to a natural power, by repeated squaring, every step rounded. -/
def powerNat (a : Binary64) (n : Nat) : Binary64 :=
  powerLoop (ofNat 1) a n

/-- `a` to an integer power; a negative one is the reciprocal of the positive one. -/
def power (a : Binary64) (n : Int) : Binary64 :=
  if n < 0 then (ofNat 1).div (powerNat a n.natAbs) else powerNat a n.natAbs

/-- The nearest whole number, a half going away from zero. -/
def roundAway : Binary64 → Binary64
  | finite s m g =>
    let whole := (2 * units m g + unitsPerOne) / (2 * unitsPerOne)
    if whole = 0 then zero s else round s whole 1
  | x => x

/-- The whole part as an integer, for a finite number. -/
def truncate? : Binary64 → Option Int
  | finite s m g =>
    let whole := units m g / unitsPerOne
    some (if s then -(whole : Int) else whole)
  | _ => none

/-- The whole part held within the unsigned words of 64 bits; nothing at all counts as zero. -/
def toWord : Binary64 → Nat
  | nan => 0
  | infinite s => if s then 0 else Nat.pow 2 64 - 1
  | finite s m g => if s then 0 else Nat.min (units m g / unitsPerOne) (Nat.pow 2 64 - 1)

/-- The bits of the interchange format: sign, eleven exponent bits, 52 trailing bits. -/
def toBits : Binary64 → Nat
  | nan => 0x7ff8000000000000
  | infinite s => (if s then Nat.pow 2 63 else 0) + 0x7ff0000000000000
  | finite s m g =>
    (if s then Nat.pow 2 63 else 0) +
      if m < Nat.pow 2 52 then m else (g + 1) * Nat.pow 2 52 + (m - Nat.pow 2 52)

end Binary64

end WalletTopUp
