import WalletTopUp.Json.Shape

/-!
# Types with a JSON form

A type has a JSON form when its values are the values of a shape: `pack` takes a value apart into the
fields of the shape and `unpack` puts it together again. `encode` writes a value, `decode` reads one
from a text that holds nothing else.
-/

namespace WalletTopUp.Json

/-- A shape whose values stand for the values of `α`. -/
class Form (α : Type) where
  shape : Shape
  pack : α → shape.Value
  unpack : shape.Value → α
  unpack_pack : ∀ a, unpack (pack a) = a

variable {α : Type} [Form α]

def encode (a : α) : String :=
  String.ofList ((Form.shape α).chars (Form.pack a))

/-- The value that a source writes; nothing may follow it. -/
def decodeSource (src : Source) : Except Failure α :=
  ((Form.shape α).whole src).map Form.unpack

/-- The value that a text writes; nothing may follow it. -/
def decode (s : String) : Except Failure α :=
  decodeSource (Text.symbols s)

/-- The value that a source begins with; what follows it is not looked at. -/
def decodeFirst (src : Source) : Except Failure α :=
  ((Form.shape α).first src).map Form.unpack

end WalletTopUp.Json
