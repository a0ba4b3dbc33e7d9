import WalletTopUp.Proofs.Json.Records
import WalletTopUp.Proofs.Provider.Order
import WalletTopUp.Proofs.SideEffect.Course
import WalletTopUp.Proofs.TopUp.Effects

/-!
# One record of a top-up

A completed top-up is told four times: to the provider in the order, to the caller in the receipt, to the side effects
as a transaction, and to the stream in an event. All four agree (`topUp_consistent`). The event is written as text, so
the agreement rests on decoding what was encoded; only the sign of a balance that is zero is lost on this way.
-/

namespace WalletTopUp.TopUp
open Service (isRead isOrder isDispatch)

/-- What a completed top-up was told, and the transaction that it has handed on. -/
structure Completed where
  userId : Json.Word
  before : Account
  current : Account
  provider : Nat
  order : TopUpOrder
  acceptance : Acceptance
  transaction : Transaction

namespace Completed

/-- The history holds these two readings of the account, this order and this transaction, and no others. -/
structure Of (x : Completed) (username : String) (history : Service.History) : Prop where
  readings : history.filter isRead =
    [⟨.readAccount x.userId, .ok (some x.before)⟩, ⟨.readAccount x.userId, .ok (some x.current)⟩]
  order : history.filter isOrder = [⟨.orderTopUp x.provider x.order, .ok (some x.acceptance)⟩]
  dispatch : history.filter isDispatch = [⟨.dispatch username x.transaction, ()⟩]

variable (x : Completed) (receipt : Receipt)

/-- A transaction that says what the caller, the ledger and the provider have said. -/
structure Agrees (t : Transaction) : Prop where
  told : t.receipt = { receipt with balanceAfter := receipt.balanceAfter.plain }
  /-- Dropping the sign of a zero does not change the value. -/
  sameValue : t.receipt.balanceAfter.sameValue receipt.balanceAfter = true
  balanceBefore : t.balanceBefore = x.before.balance
  balanceAfter : t.balanceAfter = x.current.balance.plain
  externalReference : t.externalReference = some x.acceptance.providerId
  status : t.status = x.acceptance.status
  wallet : t.metadata.bind (Json.member? "wallet_id") = some (.text x.order.walletId)

/-- The event under the topic that tells of the top-up. -/
structure Announces (topic : String) (event : Event) : Prop where
  topic : event.topic = topic
  key : event.key = receipt.transactionId
  payload : ∃ t : Transaction, Json.decode event.payload = .ok t ∧ x.Agrees receipt t ∧
    event.headers.lookup "payment_method" = t.paymentMethod.map PaymentMethod.name ∧
    event.headers.lookup "currency" = some t.currency

/-- Provider, caller and stream have one record, whatever the provider's client is, and whatever provider, cache and
stream answer. -/
structure Consistent (username : String) : Prop where
  /-- All requests of the order name the receipt's top-up and the wallet; requests for tokens are not among them. -/
  ordered : ∀ (c : ProviderClient) (exchange : Exchange.History) (accepted : Except ProviderFault (Option Acceptance)),
    (c.topUp x.order).run.Yields exchange accepted →
      ∀ call answer, (⟨.call call, answer⟩ : Exchange.Entry) ∈ exchange →
        call.Places c.method x.order.walletId receipt.transactionId
  /-- The acceptance is made of the reply to one of them. -/
  accepted : ∀ (c : ProviderClient) (exchange : Exchange.History),
    (c.topUp x.order).run.Yields exchange (.ok (some x.acceptance)) →
      ∃ call reply response, (⟨.call call, .ok reply⟩ : Exchange.Entry) ∈ exchange ∧
        c.responseOf reply = .ok response ∧ (c.judge response).run.Yields [] (.ok (some x.acceptance))
  /-- The side effects send one and the same event, once or several times. -/
  announced : ∀ (p : Publisher) (effects : SideEffect.History) (report : SideEffect.Report),
    (SideEffect.afterTopUp p username x.transaction).Yields effects report →
      ∃ event, (∃ answer, (⟨.send event, answer⟩ : SideEffect.Entry) ∈ effects) ∧
        (∀ event' answer, (⟨.send event', answer⟩ : SideEffect.Entry) ∈ effects → event' = event) ∧
        x.Announces receipt p.topic event

end Completed

/-! ## The record of an order -/

theorem visible_nonce (id : Uuid) : Text.Visible (nonce id) := by
  intro c hc
  rw [nonce, nonceDigits, String.toList_ofList] at hc
  exact Text.isVisible_of_mem_hexDigits hc

namespace Placing
variable {registry : Registry} {request : TopUpRequest} {p : Placing} {d : Debit} {current : Account} {now : Instant}
  {id : Uuid}

theorem visible_referenceId (p : Placing) (request : TopUpRequest) : Text.Visible (p.order request).referenceId :=
  p.method.visible_referenceId p.now (visible_nonce p.id)

theorem metadata_record : (p.record d request current now id).metadata = some (.object
    [("provider_status", .text d.acceptance.providerStatus), ("wallet_id", .text (p.order request).walletId)]) := by
  rfl

/-- The event of a record holds the record. Of the amounts only the balance after the debit may be zero. -/
theorem decode_record (hp : p.Admitted registry request) :
    Json.decode (Json.encode (p.record d request current now id)) =
      .ok { p.record d request current now id with balanceAfter := current.balance.plain } := by
  have hamount := TopUpRequest.units_pos_of_validate hp.valid
  have hbefore : 0 < p.account.balance.units := Int.lt_of_lt_of_le hamount hp.covered
  have hregular : ∀ metadata ∈ (p.record d request current now id).metadata,
      metadata ≠ .null ∧ metadata.Exact Json.insertMember (Json.maxDepth - 1) := by
    rw [metadata_record]
    rintro _ ⟨⟩
    have hsorted : "provider_status" < "wallet_id" := by decide
    refine ⟨nofun, Json.exact_object (List.pairwise_pair.mpr hsorted) ?_⟩
    simp [Json.Exact]
  rw [Json.decode_encode (Transaction.regular hregular), Transaction.plain_eq]
  change Except.ok { p.record d request current now id with
    amount := request.amount.plain
    balanceBefore := p.account.balance.plain
    balanceAfter := current.balance.plain } = _
  rw [Decimal.plain_of_units_pos hamount, Decimal.plain_of_units_pos hbefore]
  rfl

end Placing

/-! ## Completed top-ups -/

section
variable {registry : Registry} {username : String} {request : TopUpRequest} {history : Service.History}
  {receipt : Receipt}

/-- **Provider, caller and stream agree on one record of a completed top-up.** -/
theorem topUp_consistent (h : (topUp registry username request).Yields history (.ok receipt)) :
    ∃ x : Completed, x.Of username history ∧ x.Consistent receipt username := by
  obtain ⟨first, hexecute, rfl⟩ := yields_topUp_iff.mp h
  rcases yields_execute_iff.mp hexecute with ⟨fault, -, hfault⟩ | ⟨p, rest, hp, rfl, hsettled⟩
  · cases hfault
  rcases hsettled with _ | _ | _ | _ | _ | ⟨d, hdebits, rows, current, now, id⟩
  refine ⟨⟨p.user.id, p.account, current, p.provider, p.order request, d.acceptance,
    p.record d request current now id⟩, ⟨rfl, rfl, rfl⟩, ?_⟩
  constructor
  case ordered =>
    intro c exchange accepted hyields
    exact (ProviderClient.topUp_places (p.visible_referenceId request) hyields).1
  case accepted =>
    intro c exchange hyields
    exact (ProviderClient.topUp_places (p.visible_referenceId request) hyields).2 _ rfl
  case announced =>
    intro publisher effects report hyields
    have hfollowed := SideEffect.followed_of_yields hyields
    refine ⟨(p.record d request current now id).event publisher.topic, hfollowed.sent, hfollowed.sends, rfl, rfl, ?_⟩
    refine ⟨_, Placing.decode_record hp, ?_, rfl, rfl⟩
    exact ⟨rfl, Decimal.sameValue_plain _, rfl, rfl, rfl, rfl, by rw [Placing.metadata_record]; rfl⟩

theorem topUp_consistent_sixty :
    (topUp Sample.registry Sample.user.username (Sample.request Sample.sixty)).Yields
        (Sample.history Sample.hundred Sample.sixty Sample.forty Sample.forty ++
          counted (Sample.request Sample.sixty)
            (.ok (Sample.receipt Sample.hundred Sample.sixty Sample.forty Sample.forty)))
        (.ok (Sample.receipt Sample.hundred Sample.sixty Sample.forty Sample.forty)) ∧
      ∃ x : Completed,
        x.Of Sample.user.username (Sample.history Sample.hundred Sample.sixty Sample.forty Sample.forty ++
          counted (Sample.request Sample.sixty)
            (.ok (Sample.receipt Sample.hundred Sample.sixty Sample.forty Sample.forty))) ∧
        x.Consistent (Sample.receipt Sample.hundred Sample.sixty Sample.forty Sample.forty) Sample.user.username := by
  have hexecute := Sample.yields_execute Sample.forty rfl Sample.sixty_le_hundred Sample.hundred_sub?_sixty
  have hyields := yields_topUp_iff.mpr ⟨_, hexecute, rfl⟩
  exact ⟨hyields, topUp_consistent hyields⟩

end

end WalletTopUp.TopUp
