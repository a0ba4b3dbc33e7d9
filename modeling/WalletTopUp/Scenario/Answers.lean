import WalletTopUp.Provider.Clients
import WalletTopUp.Scenario.World
import WalletTopUp.Service

/-!
# The answers of a scenario

How the collaborators of a scenario answer the questions of the service, of the exchanges with providers and
of the side effects.
-/

namespace WalletTopUp.Scenario

/-! ## Ledger and cache -/

def findUser (username : String) : Happening (Except Fault (Option User)) := do
  noteCall (.findUser username)
  let s ← get
  if s.trouble.findUser then return .error connectionReset
  return .ok (s.world.users.reverse.find? (·.username = username))

def readAccount (userId : Json.Word) : Happening (Except Fault (Option Account)) := do
  noteCall (.readAccount userId)
  modify fun s => { s with accountReads := s.accountReads + 1 }
  let s ← get
  if s.trouble.readAccount.contains s.accountReads then return .error connectionReset
  return .ok (s.world.ledger.account? userId)

/-- Another debit follows, if one is to come. -/
def race (id : String) : Happening Unit := do
  match (← get).trouble.race with
  | none => return
  | some amount =>
    modify fun s => { s with trouble.race := none }
    change fun w => { w with
      ledger := w.ledger.change id fun a => { a with balance := (a.balance.sub? amount).getD a.balance } }

def writeBalance (a : Account) : Happening (Except Fault Nat) := do
  noteCall (.writeBalance a.id a.balance)
  let s ← get
  if s.trouble.writeBalance then return .error connectionReset
  if s.trouble.noRow then return .ok 0
  change fun w => { w with ledger := w.ledger.write a }
  if s.world.ledger.hasId a.id then race a.id
  if s.trouble.vanish then change fun w => { w with ledger := w.ledger.remove a.id }
  return .ok (s.world.ledger.writes a)

def readCache (key : String) : Happening (Except String (Option String)) := do
  noteCall (.readCache key)
  let s ← get
  if s.trouble.readCache then return .error cacheUnavailable
  return .ok ((s.world.cache.lookup? key).map (·.value))

def writeCache (key value : String) (minutes : Nat) : Happening (Except String Unit) := do
  noteCall (.writeCache key minutes)
  if (← get).trouble.writeCache then return .error cacheUnavailable
  change fun w => { w with cache := w.cache.put key ⟨value, some minutes⟩ }
  return .ok ()

/-! ## Providers -/

/-- Why no request gets through. -/
def unreachable : String := "<transport>"

/-- Change the provider at a place. -/
def changeWallet (place : Nat) (wallet : Wallet) : Happening Unit :=
  change fun w => { w with wallets := w.wallets.set place wallet }

/-- The reply of the server of a provider to a request, which it puts on record. -/
def reply (place : Nat) (r : Remote) (sent : Sent)
    (next : Server → Option (Except String Reply) × Server) : Happening (Except String Reply) := do
  match r.server with
  | none => return .error unreachable
  | some server =>
    note fun r => { r with sent := r.sent ++ [(place, sent)] }
    let (found, server) := next server
    changeWallet place (.remote { r with server := some server })
    return found.getD Server.nothing

/-- A step of the exchange with the provider at a place. -/
def exchange (place : Nat) (r : Remote) : (q : Exchange.Question) → Happening (Exchange.Answer q)
  | .readSlot => return r.slot
  | .fillSlot token => changeWallet place (.remote { r with slot := some token })
  | .clearSlot => changeWallet place (.remote { r with slot := none })
  | .authenticate request =>
    reply place r (.auth request) fun server =>
      let (found, left) := takeNext server.auth
      (found, { server with auth := left })
  | .call request =>
    reply place r (.api request) fun server =>
      let (found, left) := takeNext server.api
      (found, { server with api := left })
  | .pause millis => pass millis
  | .draw => return RetryPolicy.noDraw
  | .now => return (← get).world.now
  | .fresh => draw
  | .count metric => noteCount metric 1

/-- A step of the exchange with the provider that is at the place now. -/
def exchangeAt (place : Nat) (fallback : Remote) (q : Exchange.Question) :
    Happening (Exchange.Answer q) := do
  match (← get).world.wallets[place]? with
  | some (.remote r) => exchange place r q
  | _ => exchange place fallback q

def runExchange {α : Type} (place : Nat) (r : Remote) (x : Exchanged α) :
    Happening (Except ProviderFault α) :=
  x.run.run (exchangeAt place r)

def orderTopUp (place : Nat) (order : TopUpOrder) :
    Happening (Except ProviderFault (Option Acceptance)) := do
  match (← get).world.wallets[place]? with
  | none => return .ok none
  | some (.prepared method topUps balances) =>
    noteCall (.orderTopUp method)
    note fun r => { r with providerCalls := r.providerCalls ++ [.topUp method order] }
    noteReference order.referenceId
    let (found, left) := takeNext topUps
    changeWallet place (.prepared method left balances)
    return (found.getD .decline).answer order
  | some (.remote r) =>
    if r.server.isSome then noteReference order.referenceId
    runExchange place r (r.client.topUp order)

def walletBalance (place : Nat) (walletId requestId : String) :
    Happening (Except ProviderFault WalletBalance) := do
  match (← get).world.wallets[place]? with
  | none => return .error (.rejected .gopay 404 "")
  | some (.prepared method topUps balances) =>
    noteCall (.walletBalance method)
    note fun r =>
      { r with providerCalls := r.providerCalls ++ [.balance method walletId requestId] }
    let (found, left) := takeNext balances
    changeWallet place (.prepared method topUps left)
    return (found.getD (.fail (.rejected method 404 ""))).answer walletId
  | some (.remote r) => runExchange place r (r.client.balance walletId requestId)

/-! ## The service -/

def service : (q : Service.Question) → Happening (Service.Answer q)
  | .findUser username => findUser username
  | .readAccount userId => readAccount userId
  | .writeBalance account => writeBalance account
  | .readCache key => readCache key
  | .writeCache key value minutes => writeCache key value minutes
  | .orderTopUp place order => orderTopUp place order
  | .walletBalance place walletId requestId => walletBalance place walletId requestId
  | .dispatch username transaction =>
    note fun r => { r with dispatched := r.dispatched ++ [(username, transaction)] }
  | .now => return (← get).world.now
  | .fresh => draw
  | .count metric => noteCount metric 1

/-! ## Side effects -/

/-- Delete the entries whose keys pass a test, unless that fails. -/
def dropEntries (entries : SideEffect.Drop) (test : String → Bool) : Happening (Except String Nat) := do
  note fun r => { r with drops := r.drops ++ [entries] }
  let s ← get
  if s.trouble.drops entries then return .error cacheUnavailable
  change fun w => { w with cache := w.cache.drop test }
  return .ok (s.world.cache.count test)

/-- Send an event; the first ones of a step may fail. -/
def send (event : Event) : Happening (Except String Delivery) := do
  let s ← get
  let attempt := s.sendAttempts + 1
  modify fun s => { s with sendAttempts := attempt }
  note fun r => { r with attempts := r.attempts ++ [s.clock] }
  if attempt ≤ s.trouble.sends then return .error ("broker unavailable " ++ toString attempt)
  change fun w => { w with delivered := w.delivered + 1 }
  note fun r => { r with events := r.events ++ [event] }
  return .ok ⟨event.topic, none, toString (s.world.delivered + 1) ++ "-0"⟩

def sideEffect : (q : SideEffect.Question) → Happening (SideEffect.Answer q)
  | .deleteKey key => do return (← dropEntries (.key key) (· = key)).map (0 < ·)
  | .deletePattern pattern => dropEntries (.pattern pattern) (CacheStore.matchesPattern pattern)
  | .send event => send event
  | .pause millis => pass millis
  | .draw => return RetryPolicy.noDraw
  | .count metric increment => noteCount metric increment

end WalletTopUp.Scenario
