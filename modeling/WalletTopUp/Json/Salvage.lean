import WalletTopUp.Json.Tree

/-!
# Reading on after a failure

A value can be well-formed and still stand for nothing: a number is too large, a string names half of a
pair of surrogates or holds bytes that are no characters. Here such a value does not end the reading. It is
given up, and the reading goes on where it stopped: behind a number, but inside a number whose exponent is
beyond all bounds; behind a string with stray bytes, but inside a string right after a surrogate that is
alone. An array or an object with such a value in it is given up as well, and its closing bracket is passed
if it comes next. So what is given up stays without consequence only where the rest goes on as it should.
-/

namespace WalletTopUp.Json

/-- A value, or none if it was given up, and what is left where the reading stopped. -/
abbrev Salvaged (α : Type) := Option α × Source

/-- What is left after one more byte. -/
def dropByte : Source → Source
  | [] => []
  | .error _ :: rest => rest
  | .ok c :: rest => ((Text.bytes (String.singleton c)).drop 1).map .error ++ rest

/-- The code unit that has to follow one that begins a pair. -/
def salvagePair (high : Nat) : Source → Except Failure (Salvaged Char)
  | [] => .error .truncated
  | .ok '\\' :: [] => .error .truncated
  | .ok '\\' :: .ok 'u' :: rest => do
    let (low, rest) ← fourDigits rest
    return (if isLowSurrogate low then some (pairChar high low) else none, rest)
  | .ok '\\' :: rest => .ok (none, dropByte rest)
  | rest => .ok (none, dropByte rest)

def salvageEscape : Source → Except Failure (Salvaged Char)
  | [] => .error .truncated
  | .error _ :: _ => .error .malformed
  | .ok c :: rest =>
    if c = 'u' then do
      let (n, rest) ← fourDigits rest
      if isLowSurrogate n then return (none, rest)
      else if isHighSurrogate n then salvagePair n rest
      else return (some (Char.ofNat n), rest)
    else
      match shortEscape? c with
      | some d => .ok (some d, rest)
      | none => .error .malformed

/-- The characters up to the closing quote; `fuel` bounds their number. -/
def salvageString : (fuel : Nat) → Source → Except Failure (Salvaged (List Char))
  | 0, _ => .error .truncated
  | _ + 1, [] => .error .truncated
  | fuel + 1, .error _ :: rest => (salvageString fuel rest).map fun (_, left) => (none, left)
  | fuel + 1, .ok c :: rest =>
    if c = '"' then .ok (some [], rest)
    else if c = '\\' then do
      match ← salvageEscape rest with
      | (some d, rest) => (salvageString fuel rest).map fun (cs, left) => (cs.map (d :: ·), left)
      | (none, rest) => return (none, rest)
    else if c.toNat < 0x20 then .error .malformed
    else (salvageString fuel rest).map fun (cs, left) => (cs.map (c :: ·), left)

/-- The digits after the one that takes a number beyond a signed word of 32 bits; `n` is the number so
far. -/
def beyondWord (n : Nat) : List Char → List Char
  | [] => []
  | c :: rest =>
    let next := n * 10 + (c.toNat - '0'.toNat)
    if Nat.pow 2 31 ≤ next then rest else beyondWord next rest

/-- The digits of a literal that are left when its number is given up. -/
def Literal.unread (l : Literal) : List Char :=
  match l.exponent with
  | some (false, digits) => beyondWord 0 digits
  | _ => []

def salvageNumber (src : Source) : Except Failure (Salvaged Number) := do
  let (l, rest) ← readLiteral src
  match l.value? with
  | some n => return (some n, rest)
  | none => return (none, l.unread.map .ok ++ rest)

def salvageScalar (src : Source) : Except Failure (Salvaged Json) :=
  match skipSpace src with
  | [] => .error .truncated
  | .error _ :: _ => .error .malformed
  | .ok c :: rest =>
    if c = '"' then
      (salvageString (rest.length + 1) rest).map fun (cs, left) =>
        (cs.map fun cs => .text (String.ofList cs), left)
    else if c = '-' ∨ c.isDigit then
      (salvageNumber (.ok c :: rest)).map fun (n, left) => (n.map .number, left)
    else if c = 'n' then (expectWord ['u', 'l', 'l'] rest).map (some .null, ·)
    else if c = 't' then (expectWord ['r', 'u', 'e'] rest).map (some (.flag true), ·)
    else if c = 'f' then (expectWord ['a', 'l', 's', 'e'] rest).map (some (.flag false), ·)
    else .error .malformed

/-- What is left of an array in which a value was given up. -/
def leaveArray (src : Source) : Source :=
  match skipSpace src with
  | .ok ']' :: rest => rest
  | .ok ',' :: rest => rest
  | _ => src

/-- What is left of an object in which a key or a value was given up. -/
def leaveObject (src : Source) : Source :=
  match skipSpace src with
  | .ok '\x7d' :: rest => rest
  | _ => src

/-- The items that come next, up to the closing bracket; the first one has no comma before it. -/
def salvageItems (item : Source → Except Failure (Salvaged Json)) :
    (fuel : Nat) → (first : Bool) → Source → Except Failure (Salvaged (List Json))
  | 0, _, _ => .error .truncated
  | fuel + 1, first, src => do
    let rest ← match skipSpace src, first with
      | [], _ => .error .truncated
      | .ok ']' :: rest, _ => return (some [], rest)
      | .ok ',' :: rest, false => .ok rest
      | _, false => .error .malformed
      | rest, true => .ok rest
    match ← item rest with
    | (none, rest) => return (none, leaveArray rest)
    | (some a, rest) =>
      (salvageItems item fuel false rest).map fun (as, left) => (as.map (a :: ·), left)

/-- The members that come next, up to the closing brace; the first one has no comma before it. -/
def salvageMembers (item : Source → Except Failure (Salvaged Json)) :
    (fuel : Nat) → (first : Bool) → Source → Except Failure (Salvaged (List (String × Json)))
  | 0, _, _ => .error .truncated
  | fuel + 1, first, src => do
    let rest ← match skipSpace src, first with
      | [], _ => .error .truncated
      | .ok '\x7d' :: rest, _ => return (some [], rest)
      | .ok ',' :: rest, false => .ok (skipSpace rest)
      | _, false => .error .malformed
      | rest, true => .ok rest
    match ← salvageString (rest.length + 1) (← expectWord ['"'] rest) with
    | (none, rest) => return (none, leaveObject rest)
    | (some key, rest) =>
      match ← item (← expect ':' rest) with
      | (none, rest) => return (none, leaveObject rest)
      | (some value, rest) =>
        (salvageMembers item fuel false rest).map fun (members, left) =>
          (members.map ((String.ofList key, value) :: ·), left)

/-- The value that comes next, with at most `depth` containers inside one another. -/
def salvageTree : (depth : Nat) → Source → Except Failure (Salvaged Json)
  | 0, src => salvageScalar src
  | depth + 1, src =>
    match skipSpace src with
    | .ok '[' :: rest =>
      (salvageItems (salvageTree depth) (rest.length + 1) true rest).map fun (items, left) =>
        (items.map .array, left)
    | .ok '\x7b' :: rest =>
      (salvageMembers (salvageTree depth) (rest.length + 1) true rest).map fun (members, left) =>
        (members.map .object, left)
    | src => salvageScalar src

end WalletTopUp.Json
