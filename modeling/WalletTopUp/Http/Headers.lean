import WalletTopUp.Text.Utf8

/-!
# Headers

The headers of a message are a list: a name may come more than once and the first value is the one that
counts. A value is a list of bytes. It may hold any byte but control characters, and it can be read as
text when all of its bytes are visible ASCII characters, spaces or tabs.
-/

namespace WalletTopUp

/-- A header. Its name is in lower case. -/
structure Header where
  name : String
  value : List UInt8
  deriving DecidableEq, Repr

abbrev Headers := List Header

/-- The byte may stand in a header. -/
def isHeaderByte (b : UInt8) : Bool := (0x20 ≤ b && b != 0x7f) || b == 0x09

/-- The byte is a visible ASCII character, a space or a tab. -/
def isVisibleByte (b : UInt8) : Bool := (0x20 ≤ b && b < 0x7f) || b == 0x09

/-- The bytes of a text, if they may stand in a header. -/
def headerBytes? (s : String) : Option (List UInt8) :=
  let bytes := Text.bytes s
  if bytes.all isHeaderByte then some bytes else none

def headerText? (value : List UInt8) : Option String :=
  if value.all isVisibleByte then some (String.ofList (value.map fun b => Char.ofNat b.toNat))
  else none

namespace Headers

def values (headers : Headers) (name : String) : List (List UInt8) :=
  (headers.filter (·.name = name)).map (·.value)

def get? (headers : Headers) (name : String) : Option (List UInt8) :=
  (headers.find? (·.name = name)).map (·.value)

def text? (headers : Headers) (name : String) : Option String :=
  (headers.get? name).bind headerText?

def without (headers : Headers) (name : String) : Headers :=
  headers.filter (·.name ≠ name)

/-- One value in place of all values with a name. -/
def replace (headers : Headers) (name : String) (value : List UInt8) : Headers :=
  headers.without name ++ [⟨name, value⟩]

/-- The text in place of all values with a name, if it may stand in a header. -/
def replaceText (headers : Headers) (name : String) (text : String) : Headers :=
  match headerBytes? text with
  | some value => headers.replace name value
  | none => headers

/-- Text that is known to be plain becomes a header. -/
def ofText (name text : String) : Header := ⟨name, Text.bytes text⟩

@[simp] theorem get?_without_self (headers : Headers) (name : String) :
    (headers.without name).get? name = none := by
  simp [get?, without, List.find?_eq_none]

/-- What was put in is what is found. -/
@[simp] theorem get?_replace_self (headers : Headers) (name : String) (value : List UInt8) :
    (headers.replace name value).get? name = some value := by
  have h := get?_without_self headers name
  simp only [get?, Option.map_eq_none_iff] at h
  simp [get?, replace, List.find?_append, h]

end Headers

end WalletTopUp
