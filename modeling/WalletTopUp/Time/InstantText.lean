import WalletTopUp.Text.Characters
import WalletTopUp.Text.Utf8
import WalletTopUp.Time.Instant

/-!
# Instants as text

An instant is written as in RFC 3339, in UTC, with the fewest of 0, 3, 6 or 9 fraction digits that
are exact. Reading is wider: blanks may stand before every part, the date and the time are separated
by `T`, `t` or a space, numbers need not have all their digits, years may have a sign, fraction
digits past the ninth are dropped, and the zone is `Z`, `UTC` or an offset. The first fault from the
left is reported.
-/

namespace WalletTopUp.Instant

/-- What is wrong with a text that is no instant. -/
inductive Fault where
  /-- A number exceeds the range of its place, or the day does not exist. -/
  | outOfRange
  /-- No moment of the calendar has this local time. -/
  | impossible
  | invalid
  | tooShort
  | trailing
  deriving DecidableEq, Repr

def Fault.message : Fault → String
  | outOfRange => "input is out of range"
  | impossible => "no possible date and time matching input"
  | invalid => "input contains invalid characters"
  | tooShort => "premature end of input"
  | trailing => "trailing input"

/-- The digits of `n`, filled up with zeros to `width`. -/
def padded (width n : Nat) : List Char :=
  let digits := Nat.toDigits 10 n
  List.replicate (width - digits.length) '0' ++ digits

/-- Years of up to four digits have four; the others have a sign as well. -/
def yearText (year : Int) : List Char :=
  if 0 ≤ year ∧ year ≤ 9999 then padded 4 year.toNat
  else (if year < 0 then '-' else '+') :: padded 4 year.natAbs

/-- The fraction of a second, in the fewest of 0, 3, 6 or 9 digits. -/
def fractionText (nano : Nat) : List Char :=
  if nano = 0 then []
  else if nano % 1000000 = 0 then '.' :: padded 3 (nano / 1000000)
  else if nano % 1000 = 0 then '.' :: padded 6 (nano / 1000)
  else '.' :: padded 9 nano

def chars (t : Instant) : List Char :=
  let leap := nanosPerSecond ≤ t.nano
  yearText t.date.year ++ '-' :: padded 2 t.date.month ++ '-' :: padded 2 t.date.day ++
    'T' :: padded 2 (t.second / 3600) ++ ':' :: padded 2 (t.second / 60 % 60) ++
    ':' :: padded 2 (if leap then 60 else t.second % 60) ++
    fractionText (if leap then t.nano - nanosPerSecond else t.nano) ++ ['Z']

def text (t : Instant) : String := String.ofList t.chars

/-! ## Reading

Every step yields its result and the characters after it. -/

/-- A signed word of 64 bits bounds every number that is read. -/
def wordLimit : Nat := Nat.pow 2 63

/-- Up to `most` digits, at least one, as a number. -/
def number (most : Option Nat) (cs : List Char) : Except Fault (Nat × List Char) :=
  let limited := match most with
    | some n => cs.take n
    | none => cs
  let digits := limited.takeWhile Char.isDigit
  let n := Nat.ofDigitChars 10 digits 0
  if cs.isEmpty then .error .tooShort
  else if digits.isEmpty then .error .invalid
  else if wordLimit ≤ n then .error .outOfRange
  else .ok (n, cs.drop digits.length)

/-- A number of at most two digits between two bounds, after blanks. -/
def place (low high : Nat) (cs : List Char) : Except Fault (Nat × List Char) := do
  let (n, rest) ← number (some 2) (Text.trimStart cs)
  if low ≤ n ∧ n ≤ high then .ok (n, rest) else .error .outOfRange

/-- The year: at most four digits, or a sign and any number of them. -/
def year (cs : List Char) : Except Fault (Int × List Char) := do
  let (n, rest) ← match Text.trimStart cs with
    | '-' :: rest => (number none rest).map fun (n, rest) => (-(n : Int), rest)
    | '+' :: rest => (number none rest).map fun (n, rest) => ((n : Int), rest)
    | rest => (number (some 4) rest).map fun (n, rest) => ((n : Int), rest)
  if -0x8000_0000 ≤ n ∧ n < 0x8000_0000 then .ok (n, rest) else .error .outOfRange

/-- One given character, after blanks. -/
def mark (c : Char) (cs : List Char) : Except Fault (List Char) :=
  match Text.trimStart cs with
  | [] => .error .tooShort
  | d :: rest => if d = c then .ok rest else .error .invalid

/-- The separator of date and time. -/
def separator : List Char → Except Fault (List Char)
  | [] => .error .tooShort
  | c :: rest => if c = 'T' ∨ c = 't' ∨ c = ' ' then .ok rest else .error .invalid

/-- The nanoseconds of an optional fraction. -/
def fraction : List Char → Except Fault (Nat × List Char)
  | '.' :: cs => do
    let (n, rest) ← number (some 9) cs
    let used := ((cs.take 9).takeWhile Char.isDigit).length
    .ok (n * Nat.pow 10 (9 - used), rest.dropWhile Char.isDigit)
  | cs => .ok (0, cs)

/-- Two digits, the first of them below a bound. The end is told from a wrong character by the number
of bytes that are left. -/
def twoDigits (cs : List Char) : Except Fault (Nat × List Char) :=
  if Text.byteLength cs < 2 then .error .tooShort
  else
    match cs with
    | a :: b :: rest =>
      if a.isDigit && b.isDigit then .ok (Nat.ofDigitChars 10 [a, b] 0, rest) else .error .invalid
    | _ => .error .invalid

/-- The zone as seconds east of UTC. -/
def zone (cs : List Char) : Except Fault (Int × List Char) :=
  if cs.take 3 |> String.ofList |> Text.sameLetters "UTC" then .ok (0, cs.drop 3)
  else
    let offset (sign : Int) (cs : List Char) : Except Fault (Int × List Char) := do
      let (hours, rest) ← twoDigits cs
      let (minutes, rest) ← twoDigits (rest.dropWhile fun c => c = ':' || Text.isBlank c)
      if 60 ≤ minutes then .error .outOfRange
      else .ok (sign * (hours * 3600 + minutes * 60), rest)
    match cs with
    | [] => .error .tooShort
    | 'Z' :: rest => .ok (0, rest)
    | 'z' :: rest => .ok (0, rest)
    | '+' :: rest => offset 1 rest
    | '-' :: rest => offset (-1) rest
    | '\u2212' :: rest => offset (-1) rest
    | _ => .error .invalid

/-- The instant that a text writes, or its first fault. -/
def ofText (s : String) : Except Fault Instant := do
  let (y, cs) ← year s.toList
  let (month, cs) ← place 1 12 (← mark '-' cs)
  let (day, cs) ← place 1 31 (← mark '-' cs)
  let cs ← separator cs
  let (hour, cs) ← place 0 23 cs
  let (minute, cs) ← place 0 59 (← mark ':' cs)
  let (second, cs) ← place 0 60 (← mark ':' cs)
  let (nano, cs) ← fraction cs
  let (offset, cs) ← zone (Text.trimStart cs)
  if !(Text.trimStart cs).isEmpty then .error .trailing
  else
    match Date.of? y month day with
    | none => .error .outOfRange
    | some date =>
      if 86400 ≤ offset.natAbs then .error .outOfRange
      else
        let leap := second = 60
        let secondOfDay := hour * 3600 + minute * 60 + (if leap then 59 else second)
        let local? := of? date secondOfDay (if leap then nano + nanosPerSecond else nano)
        match local?.bind (·.earlier? offset) with
        | some t => .ok t
        | none => .error .impossible

end WalletTopUp.Instant
