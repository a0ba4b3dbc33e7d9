import WalletTopUp.Json.Scalar
import WalletTopUp.Json.Tree

/-!
# Shapes

A `Shape` describes the JSON form of a record: its fields in order and what each holds. One reader and
one writer serve all shapes, so that laws of reading and writing are proved once.

A record is written as an object with its fields in order. It is read from an object with its fields
in any order, or from an array of all of them in order. Unknown fields are passed over, a field may
not come twice, and a missing field is an error unless it is optional. A choice is one of some names,
alone or as the key of an object with the value `null`. Where the form is left open, the members of
objects are sorted by key, or they are kept as they are written.
-/

namespace WalletTopUp.Json

mutual

/-- The form of a JSON value. -/
inductive Shape where
  | scalar (kind : Scalar)
  | choice (names : List String)
  | optional (content : Shape)
  | any
  | asWritten
  | record (name : String) (fields : Fields)

/-- The fields of a record in order. -/
inductive Fields where
  | done
  | field (name : String) (shape : Shape) (rest : Fields)

end

mutual

@[reducible] def Shape.Value : Shape → Type
  | .scalar kind => kind.Value
  | .choice names => Fin names.length
  | .optional content => Option content.Value
  | .any => Json
  | .asWritten => Json
  | .record _ fields => fields.Values

@[reducible] def Fields.Values : Fields → Type
  | .done => Unit
  | .field _ shape rest => shape.Value × rest.Values

end

/-- The values of the fields that have been read so far. -/
@[reducible] def Fields.Slots : Fields → Type
  | .done => Unit
  | .field _ shape rest => Option shape.Value × rest.Slots

def Fields.empty : (fields : Fields) → fields.Slots
  | .done => ()
  | .field _ _ rest => (none, rest.empty)

def Fields.count : Fields → Nat
  | .done => 0
  | .field _ _ rest => rest.count + 1

/-- The value of a field that is missing, if it may be. -/
def Shape.absent? : (shape : Shape) → Option shape.Value
  | .optional _ => some none
  | _ => none

/-- The values of all fields, or the first one that is missing. -/
def Fields.complete : (fields : Fields) → fields.Slots → Except Failure fields.Values
  | .done, () => .ok ()
  | .field name shape rest, (slot, slots) =>
    match slot <|> shape.absent? with
    | none => .error (.mismatch [] ("missing field `" ++ name ++ "`"))
    | some value => (rest.complete slots).map fun values => (value, values)

/-- Names in the words of a message. -/
def namesText (names : List String) : String :=
  let quoted := names.map fun name => "`" ++ name ++ "`"
  match quoted with
  | [] => "there are no variants"
  | [a] => "expected " ++ a
  | [a, b] => "expected " ++ a ++ " or " ++ b
  | many => "expected one of " ++ ", ".intercalate many

/-- The place of a name among the names of a choice. -/
def choose (names : List String) (name : String) : Except Failure (Fin names.length) :=
  match names.finIdxOf? name with
  | some i => .ok i
  | none => .error (.mismatch [] ("unknown variant `" ++ name ++ "`, " ++ namesText names))

/-- A choice: a name, or an object with the name as its only key. -/
def readChoice (names : List String) (src : Source) :
    Except Failure (Fin names.length × Source) := do
  match skipSpace src with
  | [] => .error .truncated
  | .ok '"' :: rest =>
    let (name, rest) ← readKey rest
    return (← choose names name, rest)
  | .ok '\x7b' :: rest =>
    let (found, rest) ← readLexeme rest
    match found with
    | .text name =>
      let chosen ← choose names name
      let (content, rest) ← readLexeme (← expect ':' rest)
      match content with
      | .null => return (chosen, ← expect '\x7d' rest)
      | other => .error (other.wrongType "unit")
    | other => .error (other.wrongType "variant identifier")
  | _ => .error .malformed

/-- A null, or else what `content` reads. -/
def readOptional {α : Type} (content : Source → Except Failure (α × Source)) (src : Source) :
    Except Failure (Option α × Source) :=
  match skipSpace src with
  | .ok 'n' :: rest => (expectWord ['u', 'l', 'l'] rest).map fun rest => (none, rest)
  | src => (content src).map fun (a, rest) => (some a, rest)

/-- A failure below a step is reported with the step. -/
def under {α : Type} (step : Step) (result : Except Failure α) : Except Failure α :=
  result.mapError (Failure.under step)

/-- An array of all fields has too few of them. -/
def tooShort (name : String) (total found : Nat) : Failure :=
  .mismatch [] ("invalid length " ++ toString found ++ ", expected struct " ++ name ++ " with " ++
    toString total ++ " element" ++ (if total = 1 then "" else "s"))

mutual

/-- Read a value of a shape, with at most `depth` containers inside one another. -/
def Shape.read : (shape : Shape) → (depth : Nat) → Source → Except Failure (shape.Value × Source)
  | .scalar kind, _, src => do
    let (found, rest) ← readLexeme src
    return (← kind.ofLexeme found, rest)
  | .choice names, _, src => readChoice names src
  | .optional content, depth, src => readOptional (content.read depth) src
  | .any, depth, src => readTree depth src
  | .asWritten, depth, src => readAsWritten depth src
  | .record name fields, depth, src => do
    let (found, rest) ← readLexeme src
    match found, depth with
    | .sequence, inner + 1 => fields.readItems inner name fields.count 0 rest
    | .mapping, inner + 1 =>
      let (slots, rest) ← members
        (fun key slots src => (fields.readMember inner key slots src).getD
          ((expect ':' src).bind fun src => (skipValue src).map fun rest => (slots, rest)))
        fields.empty rest
      return (← fields.complete slots, rest)
    | .sequence, 0 => .error .malformed
    | .mapping, 0 => .error .malformed
    | other, _ => .error (other.wrongType ("struct " ++ name))

/-- Read the value of the field with the given key into its slot; `none` if there is no such field. -/
def Fields.readMember : (fields : Fields) → (depth : Nat) → (key : String) → fields.Slots →
    Source → Option (Except Failure (fields.Slots × Source))
  | .done, _, _, _, _ => none
  | .field name shape rest, depth, key, (slot, slots), src =>
    if key = name then
      some <|
        if slot.isSome then .error (.mismatch [] ("duplicate field `" ++ name ++ "`"))
        else do
          let (value, left) ← under (.field name) (shape.read depth (← expect ':' src))
          return ((some value, slots), left)
    else
      (rest.readMember depth key slots src).map fun result =>
        result.map fun (slots, left) => ((slot, slots), left)

/-- Read an array of all fields in order; the first `position` of them have been read. -/
def Fields.readItems : (fields : Fields) → (depth : Nat) → (name : String) → (total : Nat) →
    (position : Nat) → Source → Except Failure (fields.Values × Source)
  | .done, _, _, _, _, src => do return ((), ← expect ']' src)
  | .field _ shape rest, depth, name, total, position, src => do
    let src ← match skipSpace src, position with
      | .ok ']' :: _, _ => .error (tooShort name total position)
      | [], _ => .error .truncated
      | src, 0 => .ok src
      | .ok ',' :: after, _ =>
        match skipSpace after with
        | .ok ']' :: _ => .error .malformed
        | after => .ok after
      | _, _ => .error .malformed
    let (value, src) ← under (.index position) (shape.read depth src)
    let (values, src) ← rest.readItems depth name total (position + 1) src
    return ((value, values), src)

end

mutual

def Shape.chars : (shape : Shape) → shape.Value → List Char
  | .scalar kind, value => kind.chars value
  | .choice names, chosen => stringChars names[chosen]
  | .optional content, value =>
    match value with
    | none => ['n', 'u', 'l', 'l']
    | some value => content.chars value
  | .any, value => Json.chars value
  | .asWritten, value => Json.chars value
  | .record _ fields, values => '\x7b' :: commaSeparated (fields.memberChars values) ++ ['\x7d']

def Fields.memberChars : (fields : Fields) → fields.Values → List (List Char)
  | .done, () => []
  | .field name shape rest, (value, values) =>
    (stringChars name ++ ':' :: shape.chars value) :: rest.memberChars values

end

/-- The value that comes first in the source; what follows it is not looked at. -/
def Shape.first (shape : Shape) (src : Source) : Except Failure shape.Value :=
  (shape.read maxDepth src).map (·.1)

/-- The value that the source writes; nothing may follow it. -/
def Shape.whole (shape : Shape) (src : Source) : Except Failure shape.Value := do
  let (value, rest) ← shape.read maxDepth src
  expectEnd rest
  return value

end WalletTopUp.Json
