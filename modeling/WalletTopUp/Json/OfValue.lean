import WalletTopUp.Json.Form

/-!
# Records from values

A record may also be taken out of a JSON value that has been read already. This differs from reading a text
in three ways: the members of an object come in the order of their keys, what stands in the place of a
choice is told by its kind, and an array with more items than the record has fields is reported with its
length.
-/

namespace WalletTopUp.Json

def lexeme : Json → Lexeme
  | null => .null
  | flag b => .flag b
  | number n => .number n
  | text s => .text s
  | array _ => .sequence
  | object _ => .mapping

/-- The choice that a value stands for: a name, or an object with the name as its only key. -/
def chooseOf (names : List String) : Json → Except Failure (Fin names.length)
  | .text name => choose names name
  | .object [(name, content)] => do
    let chosen ← choose names name
    match content with
    | .null => return chosen
    | other => throw (other.lexeme.wrongType "unit")
  | .object _ => throw (Lexeme.mapping.wrongValue "map with a single key")
  | other => throw (other.lexeme.wrongType "string or map")

/-- An array has more items than there are fields. -/
def tooLong (found : Nat) : Failure :=
  .mismatch [] ("invalid length " ++ toString found ++ ", expected fewer elements in array")

mutual

/-- The value of a shape that a JSON value stands for. -/
def Shape.ofValue : (shape : Shape) → Json → Except Failure shape.Value
  | .scalar kind, value => kind.ofLexeme value.lexeme
  | .choice names, value => chooseOf names value
  | .optional content, value =>
    match value with
    | .null => .ok none
    | value => (content.ofValue value).map some
  | .any, value => .ok value
  | .asWritten, value => .ok value
  | .record name fields, value =>
    match value with
    | .object members => do
      let slots ← members.foldlM
        (fun slots (key, value) => (fields.putMember key slots value).getD (.ok slots)) fields.empty
      fields.complete slots
    | .array items => fields.ofItems name fields.count 0 items
    | other => .error (other.lexeme.wrongType ("struct " ++ name))

/-- Put the value of the field with the given key into its slot; `none` if there is no such field. -/
def Fields.putMember : (fields : Fields) → (key : String) → fields.Slots → Json →
    Option (Except Failure fields.Slots)
  | .done, _, _, _ => none
  | .field name shape rest, key, (slot, slots), value =>
    if key = name then
      some <|
        if slot.isSome then .error (.mismatch [] ("duplicate field `" ++ name ++ "`"))
        else (under (.field name) (shape.ofValue value)).map fun value => (some value, slots)
    else
      (rest.putMember key slots value).map fun result => result.map fun slots => (slot, slots)

/-- The values of all fields in order; the first `position` of them have been taken. -/
def Fields.ofItems : (fields : Fields) → (name : String) → (total : Nat) → (position : Nat) →
    List Json → Except Failure fields.Values
  | .done, _, _, _, [] => .ok ()
  | .done, _, _, position, items => .error (tooLong (position + items.length))
  | .field _ _ _, name, total, position, [] => .error (tooShort name total position)
  | .field _ shape rest, name, total, position, value :: items => do
    let value ← under (.index position) (shape.ofValue value)
    let values ← rest.ofItems name total (position + 1) items
    return (value, values)

end

/-- The record that a value stands for. -/
def ofValue {α : Type} [Form α] (value : Json) : Except Failure α :=
  ((Form.shape α).ofValue value).map Form.unpack

end WalletTopUp.Json
