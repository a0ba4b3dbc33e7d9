import WalletTopUp.Metric
import WalletTopUp.Retry.Loop
import WalletTopUp.Transaction

/-!
# Events

A completed transaction is announced as an event on a stream. The event is keyed by the reference id and
carries the whole transaction as its payload; a few headers say what it is about. Sending is tried again
when it fails, always with the same event.
-/

namespace WalletTopUp

/-- An event on a stream. -/
structure Event where
  topic : String
  key : String
  payload : String
  headers : List (String × String)
  deriving DecidableEq, Repr

/-- Where an event was put. -/
structure Delivery where
  topic : String
  partition : Option Int
  offset : String
  deriving DecidableEq, Repr

def Transaction.event (t : Transaction) (topic : String) : Event where
  topic
  key := t.transactionId
  payload := Json.encode t
  headers := [("event_type", "transaction_completed"), ("event_version", "1.0"),
    ("transaction_type", t.type.name),
    ("payment_method", t.paymentMethod.elim "" PaymentMethod.name), ("currency", t.currency)]

/-- Announces transactions on a stream. -/
structure Publisher where
  topic : String
  retry : RetryPolicy
  deriving DecidableEq, Repr

/-- The publisher that tries as often as is standard. -/
def Publisher.standard (topic : String) : Publisher := ⟨topic, .standard⟩

end WalletTopUp
