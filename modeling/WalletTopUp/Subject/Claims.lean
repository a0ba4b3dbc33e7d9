import WalletTopUp.Json.Salvage
import WalletTopUp.Subject.Header

/-!
# The claims of a token

A token claims a subject, which is needed, and may claim an expiry and an audience. The claims are read
twice. The first reading is for the subject and passes over everything else. The second one is for the
registered claims, which may not come twice; what it cannot make sense of it gives up, so that an expiry that
is no moment, such as a string or a negative number, counts as none, and so does an audience that names
nobody. But the claims have to go on as they should behind what was given up.
-/

namespace WalletTopUp.Subject

open Json

/-- What a token says. -/
structure Claims where
  subject : String
  /-- In seconds since the start of 1970. -/
  expiry : Option Nat
  /-- The token is meant for somebody in particular. -/
  hasAudience : Bool
  deriving DecidableEq, Repr

/-- The claims of a shape with the subject alone. -/
abbrev subjectShape : Shape := .record "Claims" (.field "sub" (.scalar .text) .done)

/-- The claims that have a registered meaning. -/
inductive Registered where
  | expiry
  | start
  | subject
  | issuer
  | audience
  deriving DecidableEq, Repr

def Registered.name : Registered → String
  | expiry => "exp"
  | start => "nbf"
  | subject => "sub"
  | issuer => "iss"
  | audience => "aud"

def Registered.ofName? (name : String) : Option Registered :=
  [expiry, start, subject, issuer, audience].find? (·.name = name)

/-- A registered claim stands for a moment; the others are names. -/
def Registered.isMoment : Registered → Bool
  | expiry | start => true
  | _ => false

/-- A moment that comes next. Brackets stand for none. -/
def salvageMoment (src : Source) : Except Failure (Salvaged Json) :=
  match skipSpace src with
  | .ok '[' :: rest => .ok (none, leaveArray rest)
  | .ok '\x7b' :: rest => .ok (none, leaveObject rest)
  | src => salvageScalar src

/-- How many containers may be open inside the claims. -/
def claimDepth : Nat := maxDepth - 1

def Registered.salvage (claim : Registered) (src : Source) : Except Failure (Salvaged Json) :=
  if claim.isMoment then salvageMoment src else salvageTree claimDepth src

/-- The registered claims read so far, with their values unless they were given up. -/
abbrev FoundClaims := List (Registered × Option Json)

/-- The claim comes for the second time. -/
def repeated (claim : Registered) : Failure :=
  .mismatch [] ("duplicate field `" ++ claim.name ++ "`")

/-- Read the claim with this name; claims of other names are passed over. -/
def readClaim (name : String) (found : FoundClaims) (src : Source) :
    Except Failure (FoundClaims × Source) := do
  match Registered.ofName? name with
  | none => return (found, ← skipValue (← expect ':' src))
  | some claim =>
    if found.any (·.1 = claim) then throw (repeated claim)
    let (value, rest) ← claim.salvage (← expect ':' src)
    return ((claim, value) :: found, rest)

/-- The registered claims that a source writes: an object, and nothing after it. -/
def readRegistered (src : Source) : Except Failure FoundClaims := do
  let (found, rest) ← members readClaim [] (← expect '\x7b' src)
  expectEnd rest
  return found

/-- The value of a claim that was made and not given up. -/
def valueOf? (claim : Registered) (found : FoundClaims) : Option Json :=
  (found.find? (·.1 = claim)).bind (·.2)

/-- The moment that a number stands for, rounded to a whole second. -/
def moment? : Json → Option Nat
  | .number (.integer n) => if 0 ≤ n then some n.toNat else none
  | .number (.float (.finite negative significand grade)) =>
    if negative && significand != 0 then none
    else
      ((Binary64.finite negative significand grade).roundAway.truncate?.map Int.toNat).filter
        (· < Nat.pow 2 64)
  | _ => none

/-- A name or a list of names. -/
def isNames (value : Json) : Bool := isString value || isTexts value

def Claims.ofSource (src : Source) : Except Failure Claims := do
  let (subject, ()) ← subjectShape.whole src
  let found ← readRegistered src
  return ⟨subject, (valueOf? .expiry found).bind moment?, (valueOf? .audience found).any isNames⟩

end WalletTopUp.Subject
