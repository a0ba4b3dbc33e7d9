import WalletTopUp.Http.Headers
import WalletTopUp.Text.Characters
import WalletTopUp.Text.Hex
import WalletTopUp.Text.Split

/-!
# Cookies

A cookie header holds pairs of a name and a value with semicolons between them. Blanks around names and
values do not count, both are percent-encoded, and of several cookies with one name the last one counts.
What is no pair is passed over.
-/

namespace WalletTopUp.Http

/-- A cookie: its name and its value. -/
abbrev Cookie := String × String

/-- The characters without the blanks at both ends, percent-decoded. -/
def cookieText? (cs : List Char) : Option String :=
  Text.percentDecodeText? (String.ofList (Text.trimEnd (Text.trimStart cs)))

def cookie? (pair : List Char) : Option Cookie := do
  let (name, value) ← Text.splitFirst? '=' pair
  if name.all Text.isBlank then none
  return (← cookieText? name, ← cookieText? value)

/-- The cookies of the headers that can be read, in order. -/
def cookies (headers : Headers) : List Cookie :=
  ((headers.values "cookie").filterMap headerText?).flatMap fun line =>
    (Text.pieces ';' line.toList).filterMap cookie?

/-- The value of the last cookie with a name. -/
def cookieValue? (headers : Headers) (name : String) : Option String :=
  (((cookies headers).filter (·.1 = name)).map (·.2)).getLast?

end WalletTopUp.Http
