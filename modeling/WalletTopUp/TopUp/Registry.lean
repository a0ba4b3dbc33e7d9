import WalletTopUp.Fault
import WalletTopUp.PaymentMethod

/-!
# Registered providers

The service knows a list of providers. A request names its provider; of several providers for one method
the last one serves.
-/

namespace WalletTopUp

/-- The registered providers, by their methods. -/
abbrev Registry := List PaymentMethod

namespace Registry

/-- The place of the last provider for a method. -/
def last? (registry : Registry) (method : PaymentMethod) : Option Nat :=
  ((registry.zipIdx.filter fun (m, _) => m = method).map (·.2)).getLast?

/-- The method with this name and the provider that serves it. -/
def choose (registry : Registry) (name : String) : Except Fault (PaymentMethod × Nat) :=
  match PaymentMethod.ofName? name with
  | none => .error (.badRequest (.of (PaymentMethod.unknownMessage name)))
  | some method =>
    match registry.last? method with
    | none => .error (.badRequest (.of ("payment method not available: " ++ method.name)))
    | some provider => .ok (method, provider)

end Registry

end WalletTopUp
