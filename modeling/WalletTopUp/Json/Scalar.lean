import WalletTopUp.Json.Lexeme
import WalletTopUp.Money.Reading
import WalletTopUp.Time.InstantText
import WalletTopUp.Uuid

/-!
# Scalars with a meaning

The kinds of scalar that the records of this library hold, each with the lexemes it is read from and
its written form. Amounts are written as strings and may be read from numbers as well.
-/

namespace WalletTopUp.Json

/-- A kind of scalar. -/
inductive Scalar where
  | text
  | int64
  | flag
  | float
  | amount
  | instant
  | uuid
  deriving DecidableEq, Repr

abbrev Word := { n : Int // -0x8000_0000_0000_0000 ≤ n ∧ n < 0x8000_0000_0000_0000 }

def word? (n : Int) : Option Word :=
  if h : -0x8000_0000_0000_0000 ≤ n ∧ n < 0x8000_0000_0000_0000 then some ⟨n, h⟩ else none

/-- What a scalar of each kind is. -/
abbrev Scalar.Value : Scalar → Type
  | text => String
  | int64 => Word
  | flag => Bool
  | float => Binary64
  | amount => Decimal
  | instant => Instant
  | uuid => Uuid

/-- A kind of scalar in the words of a message. -/
def Scalar.expected : Scalar → String
  | text => "a string"
  | int64 => "i64"
  | flag => "a boolean"
  | float => "f64"
  | amount => "a Decimal type representing a fixed-point number"
  | instant => "an RFC 3339 formatted date and time string"
  | uuid => "a formatted UUID string"

/-- The value if there is one, else the complaint that the lexeme is not among the expected. -/
def orWrongValue {α : Type} (found : Lexeme) (expected : String) : Option α → Except Failure α
  | some a => .ok a
  | none => .error (found.wrongValue expected)

def Scalar.ofLexeme : (kind : Scalar) → Lexeme → Except Failure kind.Value
  | text, .text s => .ok s
  | int64, .number (.integer n) =>
    orWrongValue (.number (.integer n)) Scalar.int64.expected (word? n)
  | flag, .flag b => .ok b
  | float, .number (.integer n) => .ok (Binary64.ofInt n)
  | float, .number (.float x) => .ok x
  | amount, .number (.integer n) =>
    orWrongValue (.number (.integer n)) Scalar.amount.expected (Decimal.of? n 0)
  | amount, .number (.float x) =>
    orWrongValue (.number (.float x)) Scalar.amount.expected (Decimal.ofDigitsOf? x)
  | amount, .text s => orWrongValue (.text s) Scalar.amount.expected (Decimal.ofText? s)
  | instant, .text s => (Instant.ofText s).mapError fun fault => .mismatch [] fault.message
  | uuid, .text s => (Uuid.ofText s).mapError fun fault => .mismatch [] fault.message
  | kind, found => .error (found.wrongType kind.expected)

def Scalar.chars : (kind : Scalar) → kind.Value → List Char
  | text, s => stringChars s
  | int64, n => Number.chars (.integer n.val)
  | flag, b => (toString b).toList
  | float, x => Number.chars (.float x)
  | amount, a => stringChars a.text
  | instant, t => stringChars t.text
  | uuid, u => stringChars u.text

end WalletTopUp.Json
