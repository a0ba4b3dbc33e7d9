import WalletTopUp.Number.Numeral
import WalletTopUp.Text.Utf8

/-!
# Replies of the data store

The store answers a command with one of a few kinds of values. What a reply means depends on what the command
asked for; a reply of the wrong kind is a failure, whose exact wording is left out.
-/

namespace WalletTopUp.Redis

/-- A reply of the store. -/
inductive Reply where
  | nil
  | bulk (bytes : List UInt8)
  | status (text : String)
  | int (value : Int)
  | array (items : List Reply)
  /-- The store refuses the command. -/
  | error (text : String)
  deriving Repr, Inhabited

/-- What a failure of the store is called in a longer message. -/
def withheld : String := "<redis>"

namespace Reply

def text? : Reply → Option String
  | bulk bytes => Text.ofBytes? bytes
  | status text => some text
  | _ => none

/-- A text or nothing at all. -/
def optionalText? : Reply → Option (Option String)
  | nil => some none
  | reply => reply.text?.map some

/-- An unsigned word of 64 bits: a number, which wraps around when it is negative, or a text that holds
one. -/
def word? : Reply → Option Nat
  | int n => some (n % Int.pow 2 64).toNat
  | status "OK" => none
  | reply => reply.text?.bind fun text => (numeral (Nat.pow 2 64) text).toOption

def texts? : Reply → Option (List String)
  | nil => some []
  | array items => items.mapM text?
  | _ => none

/-- One step of a scan: the cursor to go on from and the keys found. -/
def scanned? : Reply → Option (Nat × List String)
  | array [cursor, keys] => do return (← cursor.word?, ← keys.texts?)
  | _ => none

def isDone : Reply → Bool
  | error _ => false
  | _ => true

end Reply

/-- A command: its name and its arguments. -/
abbrev Command := List String

end WalletTopUp.Redis
