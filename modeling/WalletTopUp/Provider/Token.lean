import WalletTopUp.Provider.Exchange

/-!
# The token of a provider

A token is asked for with the credentials of the service and kept until the provider refuses it. When no
token can be had the slot is left empty, whatever it held before.
-/

namespace WalletTopUp.ProviderClient

def authPath (c : ProviderClient) : String :=
  match c.method with
  | .gopay => "/auth/token"
  | .shopeePay => "/authentication"

/-- What a request for a token says at a moment. -/
def authBody (c : ProviderClient) (at' : Instant) : Json :=
  let (idName, secretName) := match c.method with
    | .gopay => ("client_id", "client_secret")
    | .shopeePay => ("merchant_id", "api_key")
  Json.ofMembers [(idName, .text c.settings.id), (secretName, .text c.settings.secret),
    ("signature", .text c.settings.signature),
    ("timestamp", .number (.integer at'.epochMillis))]

abbrev tokenShape : Json.Shape := .record "AuthResponse" (.field "token" (.scalar .text) .done)

def tokenOf? (body : Except String (List UInt8)) : Option String :=
  match body with
  | .error _ => none
  | .ok bytes =>
    match tokenShape.whole (Text.decode bytes) with
    | .ok (token, ()) => some token
    | .error _ => none

/-- The token of a reply, or why there is none. -/
def tokenOfReply : Except String Reply → Except String String
  | .error reason => .error ("error fetching auth token: " ++ reason)
  | .ok reply =>
    if Http.isSuccess reply.status then
      match tokenOf? reply.body with
      | some token => .ok token
      | none => .error "unreadable auth response: <decode>"
    else .error ("failed to authenticate: " ++ Http.statusText reply.status)

def dropToken : Exchanged Unit := Exchange.step .clearSlot

/-- Ask for a token and put it into the slot. -/
def fetchToken (c : ProviderClient) : Exchanged String := do
  let now ← Exchange.step .now
  let id ← Exchange.step .fresh
  let reply ← Exchange.step (.authenticate ⟨c.base ++ c.authPath, c.authBody now, id.text⟩)
  match tokenOfReply reply with
  | .ok token =>
    Exchange.step (.fillSlot token)
    Exchange.step (.count (.tokenRefreshes c.method))
    return token
  | .error reason =>
    dropToken
    throw (c.refused reason)

/-- The token of the slot, or a new one. -/
def currentToken (c : ProviderClient) : Exchanged String := do
  match ← Exchange.step .readSlot with
  | some token => return token
  | none => c.fetchToken

end WalletTopUp.ProviderClient
