import WalletTopUp.Http.Headers
import WalletTopUp.Text.Characters
import WalletTopUp.Text.Split

/-!
# Media types

A media type is a type, a subtype and parameters. A body is JSON when its type is `application` and its
subtype is `json` or ends in `+json`. A media type that is not written by the rules is none.
-/

namespace WalletTopUp.Http

def isTokenChar (c : Char) : Bool :=
  c.isAlphanum || "!#$%&'*+-.^_`|~".contains c

def isQuotedChar (c : Char) : Bool := 0x1f < c.toNat && c.toNat != 0x7f

/-- The rest of the parameters after a quoted value: spaces, and a semicolon or the end. -/
def afterQuoted? : List Char → Option (List Char)
  | [] => some []
  | c :: rest =>
    if c = ';' then some rest
    else if c = ' ' then afterQuoted? rest
    else none

/-- What is left after a quoted value; at least one character comes before the closing quote. -/
def skipQuoted? : List Char → Option (List Char)
  | [] => none
  | c :: rest =>
    if !isQuotedChar c then none
    else
      match rest.dropWhile fun c => isQuotedChar c && c ≠ '"' with
      | '"' :: rest => afterQuoted? rest
      | _ => none

/-- What is left after the value of a parameter. -/
def skipValue? (cs : List Char) : Option (List Char) :=
  match cs with
  | '"' :: rest => skipQuoted? rest
  | cs =>
    let value := cs.takeWhile isTokenChar
    match cs.drop value.length with
    | [] => some []
    | c :: rest => if c = ';' ∧ !value.isEmpty then some rest else none

/-- The parameters are well-formed. One round for every parameter, so their length is enough. -/
def areParameters : (fuel : Nat) → List Char → Bool
  | _, [] => true
  | 0, _ => false
  | fuel + 1, cs =>
    let cs := cs.dropWhile (· = ' ')
    if cs.isEmpty then true
    else
      let name := cs.takeWhile isTokenChar
      match cs.drop name.length with
      | '=' :: rest =>
        if name.isEmpty then false
        else
          match skipValue? rest with
          | some rest => areParameters fuel rest
          | none => false
      | _ => false

/-- The subtype without its suffix, and the suffix after the last plus sign, unless the plus comes first. -/
def splitSuffix (subtype : List Char) : List Char × Option (List Char) :=
  match Text.splitLast? '+' subtype with
  | some (before, suffix) => if before.isEmpty then (subtype, none) else (before, some suffix)
  | none => (subtype, none)

/-- Equal up to case to a word in lower case. -/
def isWord (word : String) (cs : List Char) : Bool := Text.lower (String.ofList cs) == word

/-- The media type says that a body is JSON. -/
def isJsonType (mediaType : String) : Bool :=
  let cs := mediaType.toList
  let top := cs.takeWhile isTokenChar
  match cs.drop top.length with
  | '/' :: rest =>
    let subtype := rest.takeWhile isTokenChar
    let wellFormed := !subtype.isEmpty &&
      match rest.drop subtype.length with
      | [] => true
      | c :: parameters => c = ';' && areParameters parameters.length parameters
    let (base, suffix) := splitSuffix subtype
    wellFormed && isWord "application" top &&
      (isWord "json" base || suffix.any (isWord "json"))
  | _ => false

def hasJsonBody (headers : Headers) : Bool := (headers.text? "content-type").any isJsonType

end WalletTopUp.Http
