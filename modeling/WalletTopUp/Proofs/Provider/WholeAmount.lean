import WalletTopUp.Proofs.Money.Difference
import WalletTopUp.Proofs.Provider.Order
import WalletTopUp.Proofs.Provider.Tokens

/-!
# Orders in whole units

ShopeePay takes signed words of 64 bits for amounts. An amount is one when its value is (`wholeAmount_eq_ok_iff`), with
however many zeros it is written. An order for such an amount sends just this integer with every request, as soon as
there is a token that a header can hold; an order for any other amount asks nothing of anybody (`topUp_whole`).
-/

namespace WalletTopUp

/-! ## Amounts that are words -/

namespace Decimal
variable {a : Decimal} {n : Int}

/-- The integer has the value of the amount and is a signed word of 64 bits. -/
def IsWord (a : Decimal) (n : Int) : Prop := (n : Rat) = a.value ∧ -2 ^ 63 ≤ n ∧ n ≤ 2 ^ 63 - 1

theorem value_eq_int_iff : (n : Rat) = a.value ↔ a.coefficient = n * 10 ^ a.scale := by
  rw [value, eq_div_iff (by positivity)]
  exact_mod_cast eq_comm

theorem isWhole_iff : a.isWhole = true ↔ ∃ n : Int, a.coefficient = n * 10 ^ a.scale := by
  have hwhole : a.isWhole = true ↔ a.coefficient % 10 ^ a.scale = 0 := beq_iff_eq
  rw [hwhole, ← Int.dvd_iff_emod_eq_zero]
  exact exists_congr fun n => by rw [Int.mul_comm]

theorem truncate_of_eq (h : a.coefficient = n * 10 ^ a.scale) : a.truncate = n := by
  have hpow : (10 : Int) ^ a.scale ≠ 0 := by positivity
  change a.coefficient.tdiv (10 ^ a.scale) = n
  rw [h, Int.mul_tdiv_cancel _ hpow]

end Decimal

namespace ShopeePay
variable {a : Decimal} {n : Int}

theorem wholeAmount_eq_ok_iff : wholeAmount a = .ok n ↔ a.IsWord n := by
  unfold wholeAmount Decimal.toInt64? Decimal.IsWord
  rw [Decimal.value_eq_int_iff]
  by_cases hwhole : a.isWhole = true
  · obtain ⟨m, hm⟩ := Decimal.isWhole_iff.mp hwhole
    have hsame : a.coefficient = n * 10 ^ a.scale ↔ m = n := by
      rw [hm]
      exact mul_left_inj' (by positivity)
    rw [if_pos hwhole, Decimal.truncate_of_eq hm, hsame]
    dsimp only
    split_ifs with hrange
    · rw [Except.ok.injEq]
      omega
    · refine iff_of_false nofun ?_
      omega
  · rw [if_neg hwhole]
    exact iff_of_false nofun fun h => hwhole (Decimal.isWhole_iff.mpr ⟨n, h.1⟩)

end ShopeePay

namespace ProviderClient
open Exchange (authReplies)
variable {c : ProviderClient} {errand : Errand} {token : String} {left : Nat} {history : Exchange.History} {halt : Halt}
  {r : Except ProviderFault Response}

/-! ## Where the first token comes from -/

/-- The token of the slot, or the one that the reply to the first request for a token brings when the slot is empty. -/
def Obtainable (slot : Option String) (auths : Nat → Except String Reply) (token : String) : Prop :=
  slot = some token ∨ slot = none ∧ Brings token (auths 0)

variable {slot : Option String} {auths : Nat → Except String Reply} {state : Option String × Nat}

theorem Opening.token_eq_ok_iff {o : Opening} {rest : Exchange.History}
    (hserved : Served (KeeperServes auths) (slot, 0) (o.history c ++ rest) state) :
    o.token = .ok token ↔ Obtainable slot auths token := by
  obtain ⟨rfl, -⟩ := Opening.served_iff.mp (slot_of_keeperServes hserved)
  rcases o with held | fetch
  · simp [Opening.token, Opening.found, Obtainable]
  · have hreply : fetch.reply = auths 0 := by
      -- the replies to requests for a token come in their order, and this fetch is the first
      obtain ⟨k, -, hreplies⟩ := authReplies_of_keeperServes hserved
      have hfirst : authReplies ((Opening.fetched fetch).history c ++ rest) = fetch.reply :: authReplies rest := by
        rw [Exchange.authReplies_append]
        change authReplies (fetch.history c) ++ authReplies rest = _
        rw [Fetch.authReplies_history]
        rfl
      rw [hfirst] at hreplies
      rcases k with _ | k
      · cases hreplies
      · rw [List.range'_succ, List.map_cons] at hreplies
        exact (List.cons.inj hreplies).1
    have htoken : fetch.token = .ok token ↔ Brings token (auths 0) := by
      rw [← hreply]
      exact tokenOfReply_eq_ok_iff
    simpa [Opening.token, Opening.found, Obtainable] using htoken

/-- A request is sent if and only if a token can be had that a header can hold. -/
theorem Sent.exists_call_iff (h : c.Sent errand history r)
    (hserved : Served (KeeperServes auths) (slot, 0) history state) :
    (∃ call answer, (⟨.call call, answer⟩ : Exchange.Entry) ∈ history) ↔
      ∃ token, Obtainable slot auths token ∧ headerBytes? token ≠ none := by
  obtain ⟨o, rest, rfl, hrest⟩ := h.calls_once_opened
  have htoken : ∀ token, o.token = .ok token ↔ Obtainable slot auths token := fun token =>
    Opening.token_eq_ok_iff hserved
  have hopening : ∀ call answer, (⟨.call call, answer⟩ : Exchange.Entry) ∉ o.history c := fun call answer =>
    Exchange.call_notMem_of_apiReplies (Opening.apiReplies_history c o)
  constructor
  · rintro ⟨call, answer, hcall⟩
    have hcall := (List.mem_append.mp hcall).resolve_left (hopening call answer)
    obtain ⟨rfl, -⟩ | ⟨token, reply, rest', ho, hheader, rfl⟩ := hrest
    · cases hcall
    · exact ⟨token, (htoken token).mp ho, hheader⟩
  · rintro ⟨token, hobtainable, hheader⟩
    obtain ⟨rfl, hnone⟩ | ⟨token', reply, rest', ho, hheader', rfl⟩ := hrest
    · exact absurd (hnone token ((htoken token).mpr hobtainable)) hheader
    · exact ⟨_, reply, List.mem_append_right _ List.mem_cons_self⟩

end ProviderClient

namespace ShopeePay
open ProviderClient
variable {order : TopUpOrder} {history : Exchange.History} {accepted : Except ProviderFault (Option Acceptance)}

/-- The request says this integer for the amount. -/
def Says (call : ApiRequest) (n : Int) : Prop :=
  ∃ body, call.errand.body = some body ∧ body.member? "topup_amount" = some (.number (.integer n))

def errandFor (order : TopUpOrder) (n : Int) : Errand :=
  ⟨"POST", topUpPath, some (orderBody order n), order.referenceId⟩

section
variable (settings : ProviderSettings) (retry : RetryPolicy)

theorem orderErrand_of_word {n : Int} (h : order.amount.IsWord n) :
    (client settings retry).orderErrand order = .ok (errandFor order n) := by
  change (wholeAmount order.amount).map _ = _
  rw [wholeAmount_eq_ok_iff.mpr h]
  rfl

theorem exists_orderErrand_error (h : ∀ n, ¬order.amount.IsWord n) :
    ∃ reason, (client settings retry).orderErrand order = .error reason := by
  change ∃ reason, (wholeAmount order.amount).map _ = _
  rcases hwhole : wholeAmount order.amount with reason | n
  · exact ⟨reason, rfl⟩
  · exact absurd (wholeAmount_eq_ok_iff.mp hwhole) (h n)

theorem says_request (n : Int) (token : String) : Says ((client settings retry).request (errandFor order n) token) n :=
  ⟨_, rfl, rfl⟩

/-- An order for an amount that is no word is refused before anything is asked. -/
theorem refused_of_not_word (h : ∀ n, ¬order.amount.IsWord n)
    (hyields : ((client settings retry).topUp order).run.Yields history accepted) :
    history = [] ∧ ∃ reason, accepted = .error (.invalidRequest .shopeePay reason) := by
  obtain ⟨reason, hreason⟩ := exists_orderErrand_error settings retry h
  rw [topUp_eq, hreason] at hyields
  obtain ⟨rfl, rfl⟩ := Attempt.yields_throw_iff.mp hyields
  exact ⟨rfl, reason, rfl⟩

/-- **An order is sent for the very amount or not at all.** Whatever the slot holds and whatever replies come, an order
comes to its end. It sends requests if and only if its amount has the value of a signed word of 64 bits and a token can
be had that a header can hold; all of them say this word for the amount. An order for any other amount is refused as an
invalid request, asks nothing of anybody and leaves the slot as it is. -/
theorem topUp_whole (order : TopUpOrder) (slot : Option String) (auths : Nat → Except String Reply) :
    (∃ history accepted state, ((client settings retry).topUp order).run.Yields history accepted ∧
      Served (KeeperServes auths) (slot, 0) history state) ∧
    ∀ history accepted state, ((client settings retry).topUp order).run.Yields history accepted →
      Served (KeeperServes auths) (slot, 0) history state →
      ((∃ call answer, (⟨.call call, answer⟩ : Exchange.Entry) ∈ history) ↔
        (∃ n, order.amount.IsWord n) ∧ ∃ token, Obtainable slot auths token ∧ headerBytes? token ≠ none) ∧
      (∀ call answer, (⟨.call call, answer⟩ : Exchange.Entry) ∈ history → ∃ n, order.amount.IsWord n ∧ Says call n) ∧
      ((∀ n, ¬order.amount.IsWord n) →
        history = [] ∧ state.1 = slot ∧ ∃ reason, accepted = .error (.invalidRequest .shopeePay reason)) := by
  refine ⟨Program.exists_served (exists_keeperServes auths) _ _, ?_⟩
  intro history accepted state hyields hserved
  by_cases hword : ∃ n, order.amount.IsWord n
  · obtain ⟨n, hn⟩ := hword
    obtain ⟨sent, hsent⟩ := sent_of_topUp (orderErrand_of_word settings retry hn) hyields
    refine ⟨?_, ?_, fun hnone => absurd hn (hnone n)⟩
    · rw [hsent.exists_call_iff hserved]
      exact (and_iff_right ⟨n, hn⟩).symm
    · intro call answer hcall
      obtain ⟨token, rfl⟩ := hsent.repeats call answer hcall
      exact ⟨n, hn, says_request settings retry n token⟩
  · have hnone : ∀ n, ¬order.amount.IsWord n := not_exists.mp hword
    obtain ⟨rfl, hreason⟩ := refused_of_not_word settings retry hnone hyields
    obtain rfl := served_nil_iff.mp hserved
    refine ⟨iff_of_false ?_ fun h => hword h.1, nofun, fun _ => ⟨rfl, rfl, hreason⟩⟩
    rintro ⟨call, answer, hcall⟩
    cases hcall

end

/-! ## Amounts with zeros at the end -/

namespace Sample

def settings : ProviderSettings := ⟨"http://shopee", "id", "secret", "signature"⟩

def inThousandths (n : Nat) (h : n < Decimal.limit) : TopUpOrder :=
  ⟨"8970812", ⟨false, n, 3, by decide, h⟩, "R-1", "A-1"⟩

def round : TopUpOrder := inThousandths 25000000 (by decide)

def odd : TopUpOrder := inThousandths 25000500 (by decide)

theorem round_isWord : round.amount.IsWord 25000 := by
  refine ⟨Decimal.value_eq_int_iff.mpr ?_, by decide, by decide⟩
  decide

theorem odd_not_isWord (n : Int) : ¬odd.amount.IsWord n := by
  rintro ⟨hvalue, -⟩
  have hcoefficient : (25000500 : Int) = n * 10 ^ 3 := Decimal.value_eq_int_iff.mp hvalue
  omega

end Sample

theorem topUp_whole_thousandths :
    (∃ history accepted call answer,
      ((client Sample.settings .standard).topUp Sample.round).run.Yields history accepted ∧
        (⟨.call call, answer⟩ : Exchange.Entry) ∈ history ∧ Says call 25000) ∧
    ∃ reason, ((client Sample.settings .standard).topUp Sample.odd).run.Yields []
      (.error (.invalidRequest .shopeePay reason)) := by
  have hheader : headerBytes? "token" ≠ none := by decide +kernel
  constructor
  · obtain ⟨⟨history, accepted, state, hyields, hserved⟩, hall⟩ :=
      topUp_whole Sample.settings .standard Sample.round (some "token") fun _ => .error "unreachable"
    obtain ⟨hsent, hsays, -⟩ := hall history accepted state hyields hserved
    obtain ⟨call, answer, hcall⟩ := hsent.mpr ⟨⟨25000, Sample.round_isWord⟩, "token", .inl rfl, hheader⟩
    obtain ⟨n, ⟨hvalue, -⟩, hsaid⟩ := hsays call answer hcall
    have hn : n = 25000 := by exact_mod_cast hvalue.trans Sample.round_isWord.1.symm
    exact ⟨history, accepted, call, answer, hyields, hcall, hn ▸ hsaid⟩
  · obtain ⟨⟨history, accepted, state, hyields, hserved⟩, hall⟩ :=
      topUp_whole Sample.settings .standard Sample.odd (some "token") fun _ => .error "unreachable"
    obtain ⟨rfl, -, reason, rfl⟩ := (hall history accepted state hyields hserved).2.2 Sample.odd_not_isWord
    exact ⟨reason, hyields⟩

end ShopeePay

end WalletTopUp
