import WalletTopUp.Number.Numeral
import WalletTopUp.Text.Characters
import WalletTopUp.Text.Quoted

/-!
# Settings

The service is set up by variables of its environment. Nine of them must be set: the address of the
database and the four values of each provider. The others have defaults; one that is blank or is no text
counts as unset. Variables are looked at in a fixed order and the first bad one is reported.
-/

namespace WalletTopUp

/-- The value of every variable that is set, in bytes. -/
abbrev Environment := String → Option (List UInt8)

/-- What is wrong with the environment. -/
inductive SettingsFault where
  | notSet (name : String)
  | notText (name : String) (value : List UInt8)
  | notNumber (name raw : String) (fault : NumeralFault)
  deriving DecidableEq, Repr

namespace SettingsFault

def message : SettingsFault → String
  | notSet name | notText name _ => name ++ " must be set"
  | notNumber name raw _ => name ++ " has an invalid value: " ++ raw

/-- What lies below the message. -/
def cause : SettingsFault → String
  | notSet _ => "environment variable not found"
  | notText _ value =>
    "environment variable was not valid unicode: " ++ Text.quoteSymbols (Text.decode value)
  | notNumber _ _ fault => fault.message

end SettingsFault

/-- The address of a provider and the credentials there: an id and two secrets. -/
structure ProviderSettings where
  baseUrl : String
  id : String
  secret : String
  signature : String
  deriving DecidableEq, Repr

/-- The settings of the service. -/
structure Settings where
  host : String
  httpPort : Nat
  databaseUrl : String
  maxConnections : Nat
  redisUrl : String
  gopay : ProviderSettings
  shopeePay : ProviderSettings
  requestTimeoutMillis : Nat
  connectTimeoutMillis : Nat
  topic : String
  /-- Without a secret the tokens of callers are read but not verified. -/
  jwtSecret : Option String
  logLevel : String
  otlpEndpoint : Option String
  serviceName : String
  deriving DecidableEq, Repr

namespace Settings

/-- A variable that must be set to a text. -/
def required (env : Environment) (name : String) : Except SettingsFault String :=
  match env name with
  | none => .error (.notSet name)
  | some value =>
    match Text.ofBytes? value with
    | some s => .ok s
    | none => .error (.notText name value)

/-- A variable that may be unset; a blank one is. -/
def optional? (env : Environment) (name : String) : Option String :=
  ((env name).bind Text.ofBytes?).filter fun s => !Text.isAllBlank s

/-- A number below `bound`, or the default when the variable is unset. -/
def numberOr (env : Environment) (name : String) (bound default : Nat) :
    Except SettingsFault Nat :=
  match optional? env name with
  | none => .ok default
  | some raw => (numeral bound raw).mapError fun fault => .notNumber name raw fault

def ofEnvironment (env : Environment) : Except SettingsFault Settings := do
  let host := (optional? env "PAYMENT_GATEWAY_HOST").getD "0.0.0.0"
  let httpPort ← numberOr env "PAYMENT_GATEWAY_PORT" (Nat.pow 2 16) 8080
  let databaseUrl ← required env "PAYMENT_DATABASE_URL"
  let maxConnections ← numberOr env "PAYMENT_DATABASE_MAX_CONNECTIONS" (Nat.pow 2 32) 10
  let redisUrl := (optional? env "PAYMENT_REDIS_URL").getD "redis://localhost:6379"
  let gopay : ProviderSettings := {
    baseUrl := ← required env "GOPAY_BASE_URL"
    id := ← required env "GOPAY_CLIENT_ID"
    secret := ← required env "GOPAY_CLIENT_SECRET"
    signature := ← required env "GOPAY_SIGNATURE" }
  let shopeePay : ProviderSettings := {
    baseUrl := ← required env "SHOPEE_PAY_BASE_URL"
    id := ← required env "SHOPEE_PAY_MERCHANT_ID"
    secret := ← required env "SHOPEE_PAY_API_KEY"
    signature := ← required env "SHOPEE_PAY_SIGNATURE" }
  let requestTimeoutMillis ← numberOr env "PROVIDER_TIMEOUT_MS" (Nat.pow 2 64) 10000
  let connectTimeoutMillis ← numberOr env "PROVIDER_CONNECT_TIMEOUT_MS" (Nat.pow 2 64) 3000
  return {
    host, httpPort, databaseUrl, maxConnections, redisUrl, gopay, shopeePay
    requestTimeoutMillis, connectTimeoutMillis
    topic := (optional? env "TRANSACTION_EVENTS_TOPIC").getD "transaction-events"
    jwtSecret := optional? env "JWT_SECRET"
    logLevel := (optional? env "LOG_LEVEL").getD "info,payment_gateway=debug"
    otlpEndpoint := optional? env "OTLP_ENDPOINT"
    serviceName := "payment-gateway" }

end Settings

end WalletTopUp
