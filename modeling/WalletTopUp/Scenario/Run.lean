import WalletTopUp.Http.Router
import WalletTopUp.Scenario.Answers

/-!
# Running a scenario

A step is one action of a caller. After it has come back, the side effects that it left behind are run to
their end.
-/

namespace WalletTopUp.Scenario

/-- How the service of a scenario is set up. -/
structure Setup where
  publisher : Publisher
  gateway : Gateway

/-- What a caller does. -/
inductive Action where
  | topUp (username : String) (request : TopUpRequest)
  | walletBalance (username walletType : String)
  | account (username : String)
  | balance (username : String)
  | invalidate (username : String)
  /-- Publish the event of a transaction, trying once. -/
  | publishOnce (transaction : Transaction)
  | publish (transaction : Transaction)
  | sideEffects (username : String) (transaction : Transaction)
  | putAccount (account : Account)
  | putEntry (key value : String)
  | http (request : HttpRequest)

/-- What a caller gets. -/
inductive Result where
  | receipt (result : Except Stop Receipt)
  | wallet (result : Except Fault WalletView)
  | account (result : Except Fault AccountView)
  | balance (result : Except Fault BalanceView)
  | report (report : SideEffect.Report)
  | delivery (result : Except String Delivery)
  | done
  | response (result : Except Stop HttpResponse)

def runService {α : Type} (x : Program Service α) : Happening α := x.run service

def runSideEffect {α : Type} (x : Program SideEffect α) : Happening α := x.run sideEffect

def act (setup : Setup) : Action → Happening Result
  | .topUp username request => do
    return .receipt (← runService (TopUp.topUp setup.gateway.registry username request))
  | .walletBalance username walletType => do
    return .wallet
      (← runService (TopUp.walletBalance setup.gateway.registry username walletType).run)
  | .account username => do return .account (← runService (Service.account username).run)
  | .balance username => do return .balance (← runService (Service.balance username).run)
  | .invalidate username => do
    return .report (← runSideEffect (SideEffect.dropUserEntries username))
  | .publishOnce t => do
    return .delivery (← runSideEffect (SideEffect.publishOnce setup.publisher t))
  | .publish t => do return .delivery (← runSideEffect (SideEffect.publish setup.publisher t))
  | .sideEffects username t => do
    return .report (← runSideEffect (SideEffect.afterTopUp setup.publisher username t))
  | .putAccount a => do
    change fun w => { w with ledger := w.ledger.put a }
    return .done
  | .putEntry key value => do
    change fun w => { w with cache := w.cache.put key ⟨value, none⟩ }
    return .done
  | .http request => do return .response (← runService (Http.serve setup.gateway request).run)

/-- Run the side effects that were left behind. -/
def settle (setup : Setup) : Happening Unit := do
  for (username, t) in (← get).record.dispatched do
    let _ ← runSideEffect (SideEffect.afterTopUp setup.publisher username t)

/-- A step that has come to its end. -/
structure Outcome where
  result : Result
  /-- When the action came back. -/
  elapsed : Nat
  record : Record
  world : World

def runStep (setup : Setup) (world : World) (trouble : Trouble) (action : Action) : Outcome :=
  let step : Happening (Result × Nat) := do
    let result ← act setup action
    let elapsed := (← get).clock
    settle setup
    return (result, elapsed)
  let ((result, elapsed), s) := step.run { world, trouble }
  ⟨result, elapsed, s.record, s.world⟩

/-- Run the steps of a scenario one after the other. -/
def runSteps (setup : Setup) (world : World) : List (Trouble × Action) → List Outcome
  | [] => []
  | (trouble, action) :: rest =>
    let outcome := runStep setup world trouble action
    outcome :: runSteps setup outcome.world rest

end WalletTopUp.Scenario
