import WalletTopUp.Crypto.Sha256
import WalletTopUp.Fault
import WalletTopUp.Subject.Claims
import WalletTopUp.Subject.Header
import WalletTopUp.Text.Base64Url
import WalletTopUp.Text.Split

/-!
# The subject of a token

A token has three parts with dots between them: header, claims and signature. With a secret the signature
is checked and the token must not have expired; without one the claims are taken as they stand. In both
cases a token that is meant for somebody in particular is refused, and so is one whose subject is blank.
-/

namespace WalletTopUp

/-- Why a token is refused. -/
inductive TokenFault where
  | shape
  | base64
  | json
  | algorithm
  | signature
  | noExpiry
  | expired
  | audience
  deriving DecidableEq, Repr

/-- The wording of a fault; what exactly could not be decoded is left out. -/
def TokenFault.message : TokenFault → String
  | shape => "InvalidToken"
  | base64 => "Base64 error: <detail>"
  | json => "JSON error: <detail>"
  | algorithm => "InvalidAlgorithm"
  | signature => "InvalidSignature"
  | noExpiry => "Missing required claim: exp"
  | expired => "ExpiredSignature"
  | audience => "InvalidAudience"

/-- The parts of a token, still encoded. -/
structure TokenParts where
  header : List Char
  claims : List Char
  signature : List Char
  deriving DecidableEq, Repr

namespace TokenParts

/-- The parts of a token, split from the right. -/
def ofText? (token : String) : Option TokenParts := do
  let (signed, signature) ← Text.splitLast? '.' token.toList
  let (header, claims) ← Text.splitLast? '.' signed
  return ⟨header, claims, signature⟩

/-- What the signature is about: the first two parts with their dot. -/
def signed (parts : TokenParts) : List UInt8 :=
  Text.bytes (String.ofList (parts.header ++ '.' :: parts.claims))

/-- The signature is the encoded authentication code of what is signed. -/
def isSignedWith (parts : TokenParts) (secret : List UInt8) : Bool :=
  parts.signature == Text.Base64Url.encode (Hmac.sha256 secret parts.signed)

end TokenParts

/-- Checks the tokens of callers, with a secret or without. -/
structure SubjectVerifier where
  secret : Option (List UInt8)

namespace SubjectVerifier

/-- Seconds that a token is still good for after its expiry. -/
def leeway : Int := 60

def decodePart (part : List Char) : Except TokenFault Json.Source :=
  match Text.Base64Url.decode? part with
  | some bytes => .ok (Text.decode bytes)
  | none => .error .base64

/-- The signature and its algorithm are as the secret asks. -/
def checkSignature (v : SubjectVerifier) (algorithm : Subject.Algorithm) (parts : TokenParts) :
    Except TokenFault Unit :=
  match v.secret with
  | none => .ok ()
  | some secret =>
    if algorithm ≠ Subject.hs256 then .error .algorithm
    else if parts.isSignedWith secret then .ok ()
    else .error .signature

/-- With a secret, a token has an expiry and it has not passed. -/
def checkExpiry (v : SubjectVerifier) (now : Int) (claims : Subject.Claims) :
    Except TokenFault Unit :=
  match v.secret, claims.expiry with
  | none, _ => .ok ()
  | some _, none => .error .noExpiry
  | some _, some expiry => if (expiry : Int) < now - leeway then .error .expired else .ok ()

/-- The claims of a token that is accepted at a moment, in seconds since the start of 1970. -/
def claims (v : SubjectVerifier) (now : Int) (token : String) : Except TokenFault Subject.Claims := do
  let some parts := TokenParts.ofText? token | throw .shape
  let some algorithm := Subject.algorithmOf? (← decodePart parts.header) | throw .json
  v.checkSignature algorithm parts
  let claims ← (Subject.Claims.ofSource (← decodePart parts.claims)).mapError fun _ => .json
  v.checkExpiry now claims
  if claims.hasAudience then throw .audience
  return claims

/-- The caller cannot be authenticated for this reason. -/
def refuse (reason : String) : Fault := .unauthenticated (.of reason)

def subject (v : SubjectVerifier) (now : Int) (token : String) : Except Fault String :=
  match v.claims now token with
  | .error fault => .error (refuse ("Invalid token: " ++ fault.message))
  | .ok claims =>
    if Text.isAllBlank claims.subject then .error (refuse "Token has no subject")
    else .ok claims.subject

end SubjectVerifier

end WalletTopUp
