import WalletTopUp.Text.Hex
import WalletTopUp.Text.Split

/-!
# Queries

A query is a list of fields with `&` between them, each a name and a value with `=` between them. A plus sign
stands for a space, other characters may be percent-encoded, and ill-formed bytes are replaced. A field that
is asked for must come exactly once; others are passed over.
-/

namespace WalletTopUp.Http

/-- What is wrong with a query. -/
inductive QueryFault where
  | missing (name : String)
  | duplicate (name : String)
  deriving DecidableEq, Repr

def QueryFault.message : QueryFault → String
  | missing name => "Failed to deserialize query string: missing field `" ++ name ++ "`"
  | duplicate name => "Failed to deserialize query string: duplicate field `" ++ name ++ "`"

/-- The text that a name or a value stands for. -/
def formText (cs : List Char) : String :=
  let bytes := (Text.bytes (String.ofList cs)).map fun b => if b = 0x2b then 0x20 else b
  String.ofList (Text.decodeLossy (Text.percentDecode bytes))

/-- The name and the value of a field; without `=` the value is empty. -/
def formField (cs : List Char) : String × String :=
  match Text.splitFirst? '=' cs with
  | some (name, value) => (formText name, formText value)
  | none => (formText cs, "")

def queryFields (query : String) : List (String × String) :=
  ((Text.pieces '&' query.toList).filter (!·.isEmpty)).map formField

/-- The value of the one field with a name. -/
def queryValue (query : Option String) (name : String) : Except QueryFault String :=
  match (queryFields (query.getD "")).filter (·.1 = name) with
  | [] => .error (.missing name)
  | [(_, value)] => .ok value
  | _ => .error (.duplicate name)

end WalletTopUp.Http
