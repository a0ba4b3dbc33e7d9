import WalletTopUp.Json.Number
import WalletTopUp.Json.Strings
import WalletTopUp.Text.Quoted

/-!
# What comes next

A `Lexeme` is the next value if it is a scalar, and otherwise the bracket that opens it. It is what a
message shows when something else was expected.
-/

namespace WalletTopUp.Json

/-- A scalar, or the opening of an array or an object. -/
inductive Lexeme where
  | null
  | flag (value : Bool)
  | number (value : Number)
  | text (value : String)
  | sequence
  | mapping
  deriving DecidableEq, Repr

/-- The lexeme that comes next, after spaces. -/
def readLexeme (src : Source) : Except Failure (Lexeme × Source) :=
  match skipSpace src with
  | [] => .error .truncated
  | .error _ :: _ => .error .malformed
  | .ok c :: rest =>
    if c = '"' then (stringBody rest).map fun (cs, rest) => (.text (String.ofList cs), rest)
    else if c = '-' ∨ c.isDigit then
      (readNumber (.ok c :: rest)).map fun (n, rest) => (.number n, rest)
    else if c = '[' then .ok (.sequence, rest)
    else if c = '\x7b' then .ok (.mapping, rest)
    else if c = 'n' then (expectWord ['u', 'l', 'l'] rest).map fun rest => (.null, rest)
    else if c = 't' then (expectWord ['r', 'u', 'e'] rest).map fun rest => (.flag true, rest)
    else if c = 'f' then (expectWord ['a', 'l', 's', 'e'] rest).map fun rest => (.flag false, rest)
    else .error .malformed

def Lexeme.description : Lexeme → String
  | null => "null"
  | flag b => "boolean `" ++ toString b ++ "`"
  | number (.integer n) => "integer `" ++ toString n ++ "`"
  | number (.float x) => "floating point `" ++ x.compact ++ "`"
  | text s => "string " ++ Text.quote s
  | sequence => "sequence"
  | mapping => "map"

/-- A value of another kind than expected. -/
def Lexeme.wrongType (found : Lexeme) (expected : String) : Failure :=
  .mismatch [] ("invalid type: " ++ found.description ++ ", expected " ++ expected)

/-- A value of the right kind that is not among the expected ones. -/
def Lexeme.wrongValue (found : Lexeme) (expected : String) : Failure :=
  .mismatch [] ("invalid value: " ++ found.description ++ ", expected " ++ expected)

end WalletTopUp.Json
