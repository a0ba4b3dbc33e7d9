import WalletTopUp.Json.Containers

/-!
# JSON values of any form

A `Json` is a value whose form nobody fixed in advance. `readTree` keeps the members of objects sorted
by key, of several members with one key the last; `readAsWritten` keeps all members in the order in
which they come. A text may open at most 127 arrays and objects inside one another.
-/

namespace WalletTopUp

/-- A JSON value. -/
inductive Json where
  | null
  | flag (value : Bool)
  | number (value : Json.Number)
  | text (value : String)
  | array (items : List Json)
  | object (members : List (String × Json))
  deriving Repr, Inhabited

namespace Json

/-- Put a member in its place among members sorted by key, over one with the same key. -/
def insertMember (name : String) (value : Json) : List (String × Json) → List (String × Json)
  | [] => [(name, value)]
  | (other, found) :: rest =>
    if name < other then (name, value) :: (other, found) :: rest
    else if name = other then (name, value) :: rest
    else (other, found) :: insertMember name value rest

/-- The object with these members, the last of each key. -/
def ofMembers (members : List (String × Json)) : Json :=
  object (members.foldl (fun sorted (name, value) => insertMember name value sorted) [])

def member? (name : String) : Json → Option Json
  | object members => (members.find? (·.1 = name)).map (·.2)
  | _ => none

/-- Put a member behind all others. -/
def appendMember (name : String) (value : Json) (members : List (String × Json)) :
    List (String × Json) :=
  members ++ [(name, value)]

/-- How a member joins those before it. -/
abbrev Join := String → Json → List (String × Json) → List (String × Json)

/-- Read a value whose containers hold values that `inner` reads; without it there may be none. -/
def readTreeWith (join : Join) (inner : Option (Source → Except Failure (Json × Source)))
    (src : Source) : Except Failure (Json × Source) := do
  let (found, rest) ← readLexeme src
  match found, inner with
  | .null, _ => .ok (null, rest)
  | .flag b, _ => .ok (flag b, rest)
  | .number n, _ => .ok (number n, rest)
  | .text s, _ => .ok (text s, rest)
  | .sequence, some inner => do
    let (values, rest) ← items inner rest
    .ok (array values, rest)
  | .mapping, some inner => do
    let (joined, rest) ← members
      (fun name joined src => do
        let (value, rest) ← inner (← expect ':' src)
        .ok (join name value joined, rest))
      [] rest
    .ok (object joined, rest)
  | _, none => .error .malformed

/-- Read a value with at most `depth` containers inside one another. -/
def readJoined (join : Join) : (depth : Nat) → Source → Except Failure (Json × Source)
  | 0 => readTreeWith join none
  | depth + 1 => readTreeWith join (some (readJoined join depth))

/-- Read a value, the members of its objects sorted by key. -/
def readTree : (depth : Nat) → Source → Except Failure (Json × Source) := readJoined insertMember

/-- Read a value, the members of its objects as they come. -/
def readAsWritten : (depth : Nat) → Source → Except Failure (Json × Source) := readJoined appendMember

/-- How many containers may be open at once. -/
def maxDepth : Nat := 127

def ofText (s : String) : Except Failure Json := do
  let (value, rest) ← readTree maxDepth (Text.symbols s)
  expectEnd rest
  return value

def commaSeparated : List (List Char) → List Char
  | [] => []
  | [part] => part
  | part :: rest => part ++ ',' :: commaSeparated rest

mutual

/-- The characters of the written form, without spaces. -/
def chars : Json → List Char
  | null => ['n', 'u', 'l', 'l']
  | flag true => ['t', 'r', 'u', 'e']
  | flag false => ['f', 'a', 'l', 's', 'e']
  | number n => n.chars
  | text s => stringChars s
  | array values => '[' :: commaSeparated (itemChars values) ++ [']']
  | object members => '\x7b' :: commaSeparated (memberChars members) ++ ['\x7d']

def itemChars : List Json → List (List Char)
  | [] => []
  | value :: rest => value.chars :: itemChars rest

def memberChars : List (String × Json) → List (List Char)
  | [] => []
  | (name, value) :: rest => (stringChars name ++ ':' :: value.chars) :: memberChars rest

end

def write (value : Json) : String := String.ofList value.chars

end Json

end WalletTopUp
