import WalletTopUp.Text.Utf8

/-!
# Reading JSON from the left

JSON is read in one pass, and the first problem met from the left is the one reported. A text is
either malformed, or ends too early, or is well-formed so far and holds something else than asked
for. Only the last kind has a message; it names the place where it was found.
-/

namespace WalletTopUp.Json

/-- What is still to be read. -/
abbrev Source := List Text.Symbol

/-- One step on the way from the outermost value to a place inside it. -/
inductive Step where
  | field (name : String)
  | index (position : Nat)
  deriving DecidableEq, Repr

/-- Why a text could not be read. -/
inductive Failure where
  | malformed
  | truncated
  | mismatch (path : List Step) (message : String)
  deriving DecidableEq, Repr

/-- The same failure, found below one more step. -/
def Failure.under (step : Step) : Failure → Failure
  | mismatch path message => mismatch (step :: path) message
  | failure => failure

/-- A failure in a longer message. What exactly is malformed is left out. -/
def Failure.text : Failure → String
  | malformed | truncated => "<malformed JSON>"
  | mismatch _ message => message

/-- The steps of a path, written one after the other. -/
def pathText : List Step → String
  | [] => ""
  | .field name :: rest =>
    name ++ (match rest with
      | .field _ :: _ => "."
      | _ => "") ++ pathText rest
  | .index i :: rest =>
    "[" ++ toString i ++ "]" ++ (match rest with
      | .field _ :: _ => "."
      | _ => "") ++ pathText rest

/-- The four characters that may stand between the parts of a text. -/
def isSpace (c : Char) : Bool :=
  c == ' ' || c == '\n' || c == '\t' || c == '\r'

def skipSpace : Source → Source
  | .ok c :: rest => if isSpace c then skipSpace rest else .ok c :: rest
  | src => src

/-- The characters `word` have to come next. -/
def expectWord : (word : List Char) → Source → Except Failure Source
  | [], src => .ok src
  | _ :: _, [] => .error .truncated
  | _ :: _, .error _ :: _ => .error .malformed
  | w :: word, .ok c :: rest => if c = w then expectWord word rest else .error .malformed

/-- One given character has to come next, after spaces. -/
def expect (c : Char) (src : Source) : Except Failure Source :=
  expectWord [c] (skipSpace src)

/-- Nothing but spaces may be left. -/
def expectEnd (src : Source) : Except Failure Unit :=
  match skipSpace src with
  | [] => .ok ()
  | _ => .error .malformed

end WalletTopUp.Json
