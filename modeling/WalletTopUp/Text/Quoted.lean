import WalletTopUp.Text.Hex
import WalletTopUp.Text.Printed
import WalletTopUp.Text.Utf8

/-!
# Quoted text in messages

A message shows a text it complains about between double quotes, so that blanks and control
characters can be seen: a few characters have short escapes, and what does not print is written by
its code point.
-/

namespace WalletTopUp.Text

/-- The hexadecimal digits of `n` without leading zeros, in lower case. -/
def hexText (n : Nat) : List Char :=
  Nat.toDigits 16 n

/-- One character as it stands between the quotes. -/
def quoteChar (c : Char) : List Char :=
  if c = '\t' then ['\\', 't']
  else if c = '\n' then ['\\', 'n']
  else if c = '\r' then ['\\', 'r']
  else if c = '"' then ['\\', '"']
  else if c = '\\' then ['\\', '\\']
  else if c.toNat = 0 then ['\\', '0']
  else if isPrinted c then [c]
  else ['\\', 'u', '\x7b'] ++ hexText c.toNat ++ ['\x7d']

def quote (s : String) : String :=
  String.ofList ('"' :: s.toList.flatMap quoteChar ++ ['"'])

/-- A value that is no text, between double quotes: characters as in `quote`, an apostrophe escaped
as well, and each byte of no character by its two digits. -/
def quoteSymbols (symbols : List Symbol) : String :=
  let one : Symbol → List Char
    | .ok '\'' => ['\\', '\'']
    | .ok c => quoteChar c
    | .error b => ['\\', 'x'] ++ (hexDigits 2 b.toNat).map Char.toUpper
  String.ofList ('"' :: symbols.flatMap one ++ ['"'])

end WalletTopUp.Text
