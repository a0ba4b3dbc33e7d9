/-!
# Numerals of bounded numbers

An unsigned number of some width is written in decimal digits, with an optional plus sign in front. A reader
works from the left and stops at the first fault: a character that is no digit, or the digit that takes the
number past its bound.
-/

namespace WalletTopUp

/-- Why a text is no unsigned number of some width. -/
inductive NumeralFault where
  | invalidDigit
  | tooLarge
  deriving DecidableEq, Repr

def NumeralFault.message : NumeralFault → String
  | invalidDigit => "invalid digit found in string"
  | tooLarge => "number too large to fit in target type"

/-- One digit more of a number below `bound`. -/
def nextDigit (bound : Nat) (n : Nat) (c : Char) : Except NumeralFault Nat :=
  if c.isDigit then
    let next := n * 10 + (c.toNat - '0'.toNat)
    if next < bound then .ok next else .error .tooLarge
  else .error .invalidDigit

/-- An unsigned number below `bound`: an optional plus sign and digits, nothing else. The first fault
from the left counts. -/
def numeral (bound : Nat) (s : String) : Except NumeralFault Nat :=
  let digits := match s.toList with
    | '+' :: rest => rest
    | rest => rest
  if digits.isEmpty then .error .invalidDigit else digits.foldlM (nextDigit bound) 0

@[simp] theorem numeral_empty (bound : Nat) : numeral bound "" = .error .invalidDigit := rfl

end WalletTopUp
