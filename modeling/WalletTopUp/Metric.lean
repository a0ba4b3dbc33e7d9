import WalletTopUp.PaymentMethod

/-!
# What is counted

The service counts what it does. A `Metric` names one series of counts with its labels.
-/

namespace WalletTopUp

/-- How a top-up ended. -/
inductive TopUpOutcome where
  | success
  | notFound
  | forbidden
  | invalid
  | providerAuthentication
  | providerError
  | error
  deriving DecidableEq, Repr

def TopUpOutcome.name : TopUpOutcome → String
  | success => "success"
  | notFound => "not_found"
  | forbidden => "forbidden"
  | invalid => "invalid"
  | providerAuthentication => "provider_auth"
  | providerError => "provider_error"
  | error => "error"

/-- Why a request to a provider is sent again. -/
inductive RetryReason where
  | serverError
  | tokenRefresh
  deriving DecidableEq, Repr

def RetryReason.name : RetryReason → String
  | serverError => "server_error"
  | tokenRefresh => "token_refresh"

/-- A series of counts. -/
inductive Metric where
  /-- Top-ups, by the provider asked for, if it is one, and by their end. -/
  | topUps (provider : Option PaymentMethod) (outcome : TopUpOutcome)
  | providerRetries (provider : PaymentMethod) (reason : RetryReason)
  | tokenRefreshes (provider : PaymentMethod)
  /-- Events, by whether they were delivered in the end. -/
  | events (delivered : Bool)
  | keysInvalidated
  | httpRequests (method route : String) (status : Nat)
  /-- Requests whose duration was measured. -/
  | httpDurations (method route : String) (status : Nat)
  deriving DecidableEq, Repr

namespace Metric

def labelled (name : String) (labels : List (String × String)) : String :=
  name ++ "\x7b" ++ ",".intercalate (labels.map fun (label, value) => label ++ "=" ++ value) ++
    "\x7d"

def requestLabels (method route : String) (status : Nat) : List (String × String) :=
  [("method", method), ("path", route), ("status", toString status)]

def text : Metric → String
  | topUps provider outcome =>
    labelled "topup_requests_total"
      [("provider", provider.elim "UNKNOWN" PaymentMethod.name), ("outcome", outcome.name)]
  | providerRetries provider reason =>
    labelled "provider_request_retries_total"
      [("provider", provider.name), ("reason", reason.name)]
  | tokenRefreshes provider =>
    labelled "provider_token_refresh_total" [("provider", provider.name)]
  | events delivered =>
    labelled "transaction_events_published_total"
      [("outcome", if delivered then "success" else "failure")]
  | keysInvalidated => labelled "cache_keys_invalidated_total" []
  | httpRequests method route status =>
    labelled "http_requests_total" (requestLabels method route status)
  | httpDurations method route status =>
    labelled "http_request_duration_seconds_count" (requestLabels method route status)

def add (metric : Metric) (increment : Nat) : List (Metric × Nat) → List (Metric × Nat)
  | [] => [(metric, increment)]
  | (other, total) :: rest =>
    if other = metric then (other, total + increment) :: rest
    else (other, total) :: add metric increment rest

/-- The total of every series that was counted, in the order in which they came up first. -/
def totals (counts : List (Metric × Nat)) : List (Metric × Nat) :=
  counts.foldl (fun totals (metric, increment) => add metric increment totals) []

end Metric

end WalletTopUp
