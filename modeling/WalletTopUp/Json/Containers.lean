import WalletTopUp.Json.Lexeme

/-!
# Arrays and objects

The brackets, commas and colons of arrays and objects, with the reading of what stands between them
left open. The opening bracket has been read; `fuel` bounds the number of items and is never short
when it is the length of the source.
-/

namespace WalletTopUp.Json

/-- The items after the first one, up to the closing bracket. -/
def moreItems {α : Type} (item : Source → Except Failure (α × Source)) :
    (fuel : Nat) → Source → Except Failure (List α × Source)
  | 0, _ => .error .truncated
  | fuel + 1, src =>
    match skipSpace src with
    | [] => .error .truncated
    | .ok ']' :: rest => .ok ([], rest)
    | .ok ',' :: rest => do
      let (a, rest) ← item rest
      let (as, rest) ← moreItems item fuel rest
      return (a :: as, rest)
    | _ => .error .malformed

/-- The items of an array, up to the closing bracket. -/
def items {α : Type} (item : Source → Except Failure (α × Source)) (src : Source) :
    Except Failure (List α × Source) :=
  match skipSpace src with
  | .ok ']' :: rest => .ok ([], rest)
  | src => do
    let (a, rest) ← item src
    let (as, rest) ← moreItems item rest.length rest
    return (a :: as, rest)

/-- The key that comes next; the opening quote has been read. -/
def readKey (src : Source) : Except Failure (String × Source) :=
  (stringBody src).map fun (cs, rest) => (String.ofList cs, rest)

/-- The members after the first one, up to the closing brace. Each takes the state on. -/
def moreMembers {σ : Type} (member : String → σ → Source → Except Failure (σ × Source)) :
    (fuel : Nat) → σ → Source → Except Failure (σ × Source)
  | 0, _, _ => .error .truncated
  | fuel + 1, state, src =>
    match skipSpace src with
    | [] => .error .truncated
    | .ok '\x7d' :: rest => .ok (state, rest)
    | .ok ',' :: rest =>
      match skipSpace rest with
      | [] => .error .truncated
      | .ok '"' :: rest => do
        let (name, rest) ← readKey rest
        let (state, rest) ← member name state rest
        moreMembers member fuel state rest
      | _ => .error .malformed
    | _ => .error .malformed

/-- The members of an object, up to the closing brace. -/
def members {σ : Type} (member : String → σ → Source → Except Failure (σ × Source)) (state : σ)
    (src : Source) : Except Failure (σ × Source) :=
  match skipSpace src with
  | [] => .error .truncated
  | .ok '\x7d' :: rest => .ok (state, rest)
  | .ok '"' :: rest => do
    let (name, rest) ← readKey rest
    let (state, rest) ← member name state rest
    moreMembers member rest.length state rest
  | _ => .error .malformed

/-! ## Values that are passed over

A value nobody asked for is only checked for its form: there is no limit to its depth, its numbers may
be of any size, and an incomplete number is malformed wherever it ends. -/

def skipNumber (src : Source) : Except Failure Source :=
  match readLiteral src with
  | .ok (_, rest) => .ok rest
  | .error _ => .error .malformed

/-- The opening bracket of an array or of an object. -/
inductive Bracket where
  | array
  | object
  deriving DecidableEq, Repr

def Bracket.closing : Bracket → Char
  | array => ']'
  | object => '\x7d'

/-- What is left after the key of a member and its colon; the key is still to come. -/
def skipKey (src : Source) : Except Failure Source :=
  match skipSpace src with
  | [] => .error .truncated
  | .ok '"' :: rest => do expect ':' (← skipString (rest.length + 1) rest)
  | _ => .error .malformed

/-- What is left after the opening of a value: all of it for a scalar, the bracket for the others. -/
def skipOpening (src : Source) : Except Failure (Option Bracket × Source) :=
  match skipSpace src with
  | [] => .error .truncated
  | .error _ :: _ => .error .malformed
  | .ok c :: rest =>
    if c = '"' then (skipString (rest.length + 1) rest).map (none, ·)
    else if c = '-' ∨ c.isDigit then (skipNumber (.ok c :: rest)).map (none, ·)
    else if c = '[' then .ok (some .array, rest)
    else if c = '\x7b' then .ok (some .object, rest)
    else if c = 'n' then (expectWord ['u', 'l', 'l'] rest).map (none, ·)
    else if c = 't' then (expectWord ['r', 'u', 'e'] rest).map (none, ·)
    else if c = 'f' then (expectWord ['a', 'l', 's', 'e'] rest).map (none, ·)
    else .error .malformed

/-- Where the passing over stands: before a value, right after an opening bracket, or after a value. -/
inductive Position where
  | value
  | opened
  | after
  deriving DecidableEq, Repr

/-- Pass over the rest of a value inside the brackets `stack`, the innermost first. -/
def skipFrom : (fuel : Nat) → Position → (stack : List Bracket) → Source → Except Failure Source
  | 0, _, _, _ => .error .truncated
  | _ + 1, .after, [], src => .ok src
  | fuel + 1, .value, stack, src => do
    match ← skipOpening src with
    | (none, rest) => skipFrom fuel .after stack rest
    | (some bracket, rest) => skipFrom fuel .opened (bracket :: stack) rest
  | _ + 1, .opened, [], src => .ok src
  | fuel + 1, .opened, bracket :: stack, src =>
    match skipSpace src with
    | [] => .error .truncated
    | .ok c :: rest =>
      if c = bracket.closing then skipFrom fuel .after stack rest
      else
        match bracket with
        | .array => skipFrom fuel .value (bracket :: stack) (.ok c :: rest)
        | .object => do skipFrom fuel .value (bracket :: stack) (← skipKey (.ok c :: rest))
    | .error _ :: _ => .error .malformed
  | fuel + 1, .after, bracket :: stack, src =>
    match skipSpace src with
    | [] => .error .truncated
    | .ok c :: rest =>
      if c = bracket.closing then skipFrom fuel .after stack rest
      else if c = ',' then
        match bracket with
        | .array => skipFrom fuel .value (bracket :: stack) rest
        | .object => do skipFrom fuel .value (bracket :: stack) (← skipKey rest)
      else .error .malformed
    | .error _ :: _ => .error .malformed

/-- What is left after the value that comes next. -/
def skipValue (src : Source) : Except Failure Source :=
  skipFrom (2 * src.length + 2) .value [] src

end WalletTopUp.Json
