import WalletTopUp.Number.Shortest

/-!
# Floating point as text

Two written forms of the shortest digits. `positional` never uses an exponent. `compact` is the form
inside JSON: positional with at least one fraction digit for leading exponents from -5 to 15, and
otherwise one digit, a point if more follow, and an exponent with its sign.
-/

namespace WalletTopUp.Binary64

/-- The digits of a natural number, the leading one first. -/
def digitsOf (n : Nat) : List Char := Nat.toDigits 10 n

/-- Digits with the point `places` from their end; `places` may exceed their number. -/
def withPoint (digits : List Char) (places : Nat) : List Char :=
  let padded := List.replicate (places + 1 - digits.length) '0' ++ digits
  let whole := padded.take (padded.length - places)
  let fraction := padded.drop (padded.length - places)
  if places = 0 then whole else whole ++ '.' :: fraction

/-- `digits · 10^exponent` without an exponent. -/
def positionalText (digits : Nat) (exponent : Int) : List Char :=
  if 0 ≤ exponent then digitsOf digits ++ List.replicate exponent.toNat '0'
  else withPoint (digitsOf digits) (-exponent).toNat

def signText (negative : Bool) : List Char :=
  if negative then ['-'] else []

/-- The shortest digits written out in full, without an exponent and without a needless point. -/
def positional : Binary64 → String
  | nan => "NaN"
  | infinite s => if s then "-inf" else "inf"
  | finite s m g =>
    String.ofList <| signText s ++
      if m = 0 then ['0']
      else
        let (digits, exponent) := Shortest.shortest .up m g
        positionalText digits exponent

/-- An exponent with its sign, also when it is not below zero. -/
def exponentText (e : Int) : List Char :=
  (if e < 0 then '-' else '+') :: digitsOf e.natAbs

/-- One digit, the others after a point, and the exponent. -/
def scientificText (digits : Nat) (exponent : Int) : List Char :=
  match digitsOf digits with
  | [] => []
  | d :: rest =>
    let mantissa := if rest.isEmpty then [d] else d :: '.' :: rest
    mantissa ++ 'e' :: exponentText (exponent + rest.length)

/-- The shortest digits as JSON writes them. -/
def compact : Binary64 → String
  | nan => "null"
  | infinite _ => "null"
  | finite s m g =>
    String.ofList <| signText s ++
      if m = 0 then ['0', '.', '0']
      else
        let (digits, exponent) := Shortest.shortest .even m g
        let lead := exponent + (digitsOf digits).length - 1
        if -5 ≤ lead ∧ lead ≤ 15 then
          if 0 ≤ exponent then positionalText digits exponent ++ ['.', '0']
          else positionalText digits exponent
        else scientificText digits exponent

def spanDigits (cs : List Char) : List Char × List Char :=
  (cs.takeWhile Char.isDigit, cs.dropWhile Char.isDigit)

/-- A decimal with an optional sign, point and exponent, or one of the names of an infinity or of
what is not a number in any case of letters. -/
def ofText? (s : String) : Option Binary64 :=
  let (negative, rest) := match s.toList with
    | '-' :: rest => (true, rest)
    | '+' :: rest => (false, rest)
    | rest => (false, rest)
  let name := String.ofList (rest.map Char.toLower)
  if name = "inf" ∨ name = "infinity" then some (infinite negative)
  else if name = "nan" then some nan
  else
    let (whole, rest) := spanDigits rest
    let (fraction, rest) := match rest with
      | '.' :: rest => spanDigits rest
      | rest => ([], rest)
    let number (e : Int) : Binary64 :=
      ofDecimal negative (Nat.ofDigitChars 10 (whole ++ fraction) 0) (e - fraction.length)
    if whole.isEmpty && fraction.isEmpty then none
    else match rest with
      | [] => some (number 0)
      | mark :: rest =>
        if mark ≠ 'e' ∧ mark ≠ 'E' then none
        else
          let (down, rest) := match rest with
            | '-' :: rest => (true, rest)
            | '+' :: rest => (false, rest)
            | rest => (false, rest)
          match spanDigits rest with
          | ([], _) => none
          | (ds, []) =>
            let e := Nat.min (Nat.ofDigitChars 10 ds 0) 5000
            some (number (if down then -(e : Int) else e))
          | _ => none

end WalletTopUp.Binary64
