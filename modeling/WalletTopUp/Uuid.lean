import WalletTopUp.Text.Hex
import WalletTopUp.Text.Utf8

/-!
# Universally unique identifiers

An identifier is a number of 128 bits. It is written in five groups of lower-case digits. Reading also
takes it without hyphens, in braces and after `urn:uuid:`, in either case of letters. What is wrong
with a text depends on its length first: one that is as long as a form is taken for that form, and one
that is longer than all of them is not looked at.
-/

namespace WalletTopUp

/-- An identifier of 128 bits. -/
structure Uuid where
  value : BitVec 128
  deriving DecidableEq, Inhabited

namespace Uuid

/-- What is wrong with a text that is no identifier. -/
inductive Fault where
  | length (found : Nat)
  | character (found : Char) (index : Nat)
  | groupCount (found : Nat)
  | groupLength (group expected found : Nat)
  deriving DecidableEq, Repr

def Fault.message : Fault → String
  | length n => "UUID parsing failed: invalid length: found " ++ toString n
  | character c i =>
    "UUID parsing failed: invalid character: found `" ++ c.toString ++ "` at " ++ toString i
  | groupCount n => "UUID parsing failed: invalid group count: expected 5, found " ++ toString n
  | groupLength g e n =>
    "UUID parsing failed: invalid group length in group " ++ toString g ++ ": expected " ++
      toString e ++ ", found " ++ toString n

/-- The 32 digits, without hyphens. -/
def simple (u : Uuid) : List Char := Text.hexDigits 32 u.value.toNat

/-- The 36 characters of the written form. -/
def chars (u : Uuid) : List Char :=
  let digits := u.simple
  digits.take 8 ++ '-' :: (digits.drop 8).take 4 ++ '-' :: (digits.drop 12).take 4 ++
    '-' :: (digits.drop 16).take 4 ++ '-' :: digits.drop 20

def text (u : Uuid) : String := String.ofList u.chars

def ofDigits? (digits : List Char) : Option Uuid :=
  if digits.length = 32 then (Text.hexNumber? digits).map fun n => ⟨BitVec.ofNat 128 n⟩ else none

def hyphen? : List Char → Option (List Char)
  | '-' :: rest => some rest
  | _ => none

/-- The digits of the hyphenated form: groups of 8, 4, 4, 4 and the rest. -/
def ungrouped? (cs : List Char) : Option (List Char) := do
  let b ← hyphen? (cs.drop 8)
  let c ← hyphen? (b.drop 4)
  let d ← hyphen? (c.drop 4)
  let e ← hyphen? (d.drop 4)
  return cs.take 8 ++ b.take 4 ++ c.take 4 ++ d.take 4 ++ e

/-- What stands before the identifier in its form as a name, in either case of letters. -/
def urn : List Char := "urn:uuid:".toList

def braced? (cs : List Char) : Option (List Char) :=
  if 2 ≤ cs.length ∧ cs.head? = some '\x7b' ∧ cs.getLast? = some '\x7d' then some (cs.drop 1).dropLast
  else none

/-- What stands after the name of the scheme. -/
def named? (cs : List Char) : Option (List Char) :=
  if (cs.take urn.length).map Char.toLower = urn then some (cs.drop urn.length) else none

/-- The first character that is neither a digit nor a hyphen, with its place in bytes. -/
def firstStranger? (index : Nat) : List Char → Option (Char × Nat)
  | [] => none
  | c :: rest =>
    if c = '-' ∨ (Text.hexValue? c).isSome then firstStranger? (index + c.utf8Size) rest
    else some (c, index)

def hyphens (cs : List Char) : List Nat :=
  (cs.zipIdx.filter fun (c, _) => c = '-').map (·.2)

/-- The group length that is wrong, with its length; the last group takes the blame for the rest. -/
def groupFault (total : Nat) (places : List Nat) : Fault :=
  let groups := [(0, 0, 8), (1, 9, 4), (2, 14, 4), (3, 19, 4)]
  match (groups.zip places).find? fun ((_, start, width), place) => place ≠ start + width with
  | some ((group, start, width), place) => .groupLength group width (place - start)
  | none => .groupLength 4 12 (total - 24)

/-- What is wrong with the digits and hyphens of a text of `total` bytes, `offset` of them in front. Only
a text that is `bare` may do without hyphens. -/
def innerFault (total offset : Nat) (bare : Bool) (inner : List Char) : Fault :=
  match firstStranger? offset inner with
  | some (c, index) => .character c index
  | none =>
    let places := hyphens inner
    if places.isEmpty && bare then .length total
    else if places.length ≠ 4 then .groupCount (places.length + 1)
    else groupFault total places

/-- A text, told apart by its length in bytes. -/
inductive Form where
  /-- Digits alone. -/
  | simple (inner : List Char)
  /-- Digits in groups, whatever stood around them. -/
  | hyphenated (inner : List Char)
  /-- None of the forms, although it may look like one. -/
  | other (cs : List Char)

/-- The form that a text has by its length and by what stands around the digits. -/
def Form.ofChars (cs : List Char) : Form :=
  match Text.byteLength cs, braced? cs, named? cs with
  | 32, _, _ => .simple cs
  | 36, _, _ => .hyphenated cs
  | 38, some inner, _ => .hyphenated inner
  | 45, _, some inner => .hyphenated inner
  | _, _, _ => .other cs

def Form.digits? : Form → Option (List Char)
  | simple inner => some inner
  | hyphenated inner => ungrouped? inner
  | other _ => none

def longest : Nat := 45

/-- Why a text is no identifier, given its form. -/
def Form.fault : Form → Fault
  | simple inner | hyphenated inner => innerFault (Text.byteLength inner) 0 true inner
  | other cs =>
    let total := Text.byteLength cs
    if longest < total then .length total
    else
      match braced? cs, named? cs with
      | some inner, _ => innerFault total 1 false inner
      | none, some inner => innerFault total urn.length false inner
      | none, none => innerFault total 0 true cs

def ofText (s : String) : Except Fault Uuid :=
  let form := Form.ofChars s.toList
  match form.digits?.bind ofDigits? with
  | some u => .ok u
  | none => .error form.fault

/-- The version-4 identifier with the given random bits: version and variant have fixed places. -/
def version4 (random : BitVec 128) : Uuid :=
  let cleared := random &&& ~~~(0xf000#128 <<< 64) &&& ~~~(0xc000#128 <<< 48)
  ⟨cleared ||| (0x4000#128 <<< 64) ||| (0x8000#128 <<< 48)⟩

end Uuid

end WalletTopUp
