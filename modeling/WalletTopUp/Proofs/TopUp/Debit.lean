import WalletTopUp.Proofs.TopUp.Serving

/-!
# What a top-up takes off the balance

A top-up that the provider has accepted and the ledger has stored ends with a receipt, and the receipt shows the
balances that the ledger had before and has after it (`topUp_takes`). The amount is taken off exactly if and only
if the exact difference is an amount at all, for example whenever the amount has no more places than the balance.
Otherwise the difference is rounded: what is left is off by half a unit of its last place at most, and it may be
the whole balance (`receipt_of_unmoved`).
-/

namespace WalletTopUp.TopUp
open Ledger (Serves Stores)
open Service (isAcceptance)

/-- What is left of a balance when an amount is taken off it. -/
structure Leaves (balance amount left : Decimal) : Prop where
  positive : 0 < amount.value
  covered : amount.value ≤ balance.value
  nonneg : 0 ≤ left.value
  le : left.value ≤ balance.value
  near : |left.value - (balance.value - amount.value)| ≤ 1 / (2 * 10 ^ left.scale)
  exact_iff : left.value = balance.value - amount.value ↔ Decimal.IsAmount (balance.value - amount.value)
  exact_of_scale_le : amount.scale ≤ balance.scale → left.value = balance.value - amount.value
  lt_of_isAmount : Decimal.IsAmount (balance.value - amount.value) → left.value < balance.value

section
variable {users : String → Option User} {registry : Registry} {username : String} {request : TopUpRequest}
  {ledger ledger' : Ledger} {history : Service.History} {r : Except Stop Receipt}

theorem Placing.Admitted.leaves {p : Placing} {left : Decimal} (hp : p.Admitted registry request)
    (h : p.account.balance.sub? request.amount = some left) :
    Leaves p.account.balance request.amount left := by
  obtain ⟨hnonneg, hle⟩ := hp.left_bounds h
  have hpositive := TopUpRequest.value_pos_of_validate hp.valid
  have hexact := Decimal.value_sub?_iff h
  constructor
  case positive => exact hpositive
  case covered => exact Decimal.value_le_iff.mpr hp.covered
  case nonneg => exact Decimal.zero_le_iff.mp hnonneg
  case le => exact Decimal.value_le_iff.mpr hle
  case near => exact Decimal.abs_value_sub?_le h
  case exact_iff => exact hexact
  case exact_of_scale_le =>
    intro hscale
    have hunits := TopUpRequest.units_pos_of_validate hp.valid
    exact hexact.mpr (Decimal.isAmount_sub_of_scale_le hunits.le hp.covered hscale)
  case lt_of_isAmount =>
    intro hamount
    rw [hexact.mpr hamount]
    exact sub_lt_self _ hpositive

/-- **An accepted and stored top-up** ends with a receipt that shows the balances before and after it. The amount
is taken off exactly if and only if the exact difference is an amount. -/
theorem topUp_takes (hsound : ledger.Sound) (hyields : (topUp registry username request).Yields history r)
    (hserved : Served (Serves users) ledger history ledger') (haccepted : history.countP isAcceptance ≠ 0)
    (hstores : Stores history) :
    ∃ (user : User) (before after : Account) (receipt : Receipt),
      users username = some user ∧ ledger.account? user.id = some before ∧
      ledger'.account? user.id = some after ∧ r = .ok receipt ∧ receipt.amount = request.amount ∧
      receipt.balanceBefore = before.balance ∧ receipt.balanceAfter = after.balance ∧
      Leaves before.balance request.amount after.balance := by
  rcases ended_of_topUp hsound hyields hserved with ⟨fault, hcause⟩ | ⟨p, d, now, id, hp, hd, huser, haccount⟩
  · rcases hcause with hunaccepted | hfailed
    · exact absurd hunaccepted haccepted
    · exact absurd hstores hfailed
  · have hafter : (ledger.write (p.debited d)).account? p.user.id = some (p.debited d) :=
      Ledger.account?_write_of_eq hsound haccount rfl
    exact ⟨p.user, p.account, p.debited d, _, huser, haccount, hafter, rfl, rfl, rfl, rfl, hp.leaves hd⟩

end

theorem topUp_takes_sixty :
    ∃ (user : User) (before after : Account) (receipt : Receipt),
      Sample.users Sample.user.username = some user ∧
      Ledger.account? [Sample.account Sample.hundred] user.id = some before ∧
      Ledger.account? [Sample.account Sample.forty] user.id = some after ∧
      (.ok (Sample.receipt Sample.hundred Sample.sixty Sample.forty Sample.forty) : Except Stop Receipt) =
        .ok receipt ∧
      receipt.amount = (Sample.request Sample.sixty).amount ∧ receipt.balanceBefore = before.balance ∧
      receipt.balanceAfter = after.balance ∧
      Leaves before.balance (Sample.request Sample.sixty).amount after.balance := by
  have hyields := Sample.yields_topUp rfl Sample.sixty_le_hundred Sample.hundred_sub?_sixty
  exact topUp_takes Sample.sound hyields Sample.served (by rw [Sample.accepted]; decide) Sample.stores

/-! ## Where nothing is taken off -/

namespace Sample

def fullBalance : Decimal := ⟨false, 15000000, 2, by decide, by decide⟩

def speck : Decimal := ⟨false, 1, 28, by decide, by decide⟩

/-- What is left of 150,000 rupiah without a speck: the same with 23 places. -/
def unmoved : Decimal := ⟨false, 15000000000000000000000000000, 23, by decide, by decide⟩

theorem fullBalance_sub?_speck : fullBalance.sub? speck = some unmoved := by decide

end Sample

/-- The provider tops a wallet up with the smallest amount above zero, the caller gets a receipt, and the ledger
still holds all that it held. -/
theorem receipt_of_unmoved :
    ∃ history : Service.History,
      (topUp Sample.registry Sample.user.username (Sample.request Sample.speck)).Yields history
        (.ok (Sample.receipt Sample.fullBalance Sample.speck Sample.unmoved Sample.unmoved)) ∧
      Served (Serves Sample.users) [Sample.account Sample.fullBalance] history [Sample.account Sample.unmoved] ∧
      history.countP isAcceptance = 1 ∧ Stores history ∧ 0 < Sample.speck.value ∧
      Sample.unmoved.value = Sample.fullBalance.value ∧
      Sample.unmoved.value ≠ Sample.fullBalance.value - Sample.speck.value := by
  have hspeck : 0 < Sample.speck.value := by
    norm_num [Decimal.value, Decimal.coefficient, Sample.speck]
  have hunmoved : Sample.unmoved.value = Sample.fullBalance.value := by
    norm_num [Decimal.value, Decimal.coefficient, Sample.unmoved, Sample.fullBalance]
  have hcovered : Sample.speck ≤ Sample.fullBalance := by decide
  have hyields := Sample.yields_topUp rfl hcovered Sample.fullBalance_sub?_speck
  refine ⟨_, hyields, Sample.served, Sample.accepted, Sample.stores, hspeck, hunmoved, ?_⟩
  rw [hunmoved]
  exact (sub_lt_self _ hspeck).ne'

end WalletTopUp.TopUp
