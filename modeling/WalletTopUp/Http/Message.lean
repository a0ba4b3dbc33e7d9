import WalletTopUp.Http.Headers
import WalletTopUp.Text.Split

/-!
# Requests and responses
-/

namespace WalletTopUp

/-- A request to the service. -/
structure HttpRequest where
  method : String
  path : String
  /-- What follows the question mark, if there is one. -/
  query : Option String
  headers : Headers
  body : List UInt8
  deriving DecidableEq, Repr

/-- A response of the service. -/
structure HttpResponse where
  status : Nat
  headers : Headers
  body : List UInt8
  deriving DecidableEq, Repr

namespace Http

/-- The characters up to a mark, or all of them. -/
def upTo (mark : Char) (cs : List Char) : List Char := cs.takeWhile (· ≠ mark)

/-- The target of a request without scheme and host, if it names them. -/
def localTarget (cs : List Char) : List Char :=
  if cs.head? = some '/' then cs
  else
    match Text.splitFirst? ':' cs with
    | some (_, '/' :: '/' :: rest) =>
      match rest.dropWhile fun c => c ≠ '/' && c ≠ '?' with
      | '/' :: path => '/' :: path
      | query => '/' :: query
    | _ => cs

/-- Path and query of the target of a request; a fragment is not part of it. -/
def splitTarget (target : String) : String × Option String :=
  let cs := localTarget (upTo '#' target.toList)
  match Text.splitFirst? '?' cs with
  | some (path, query) => (String.ofList path, some (String.ofList query))
  | none => (String.ofList cs, none)

def contentTypeHeader : String := "content-type"

def emptyResponse (status : Nat) (headers : Headers) : HttpResponse := ⟨status, headers, []⟩

def response (status : Nat) (contentType body : String) : HttpResponse :=
  ⟨status, [Headers.ofText contentTypeHeader contentType], Text.bytes body⟩

def jsonResponse (status : Nat) (body : String) : HttpResponse :=
  response status "application/json" body

def textResponse (status : Nat) (body : String) : HttpResponse :=
  response status "text/plain; charset=utf-8" body

end Http

end WalletTopUp
