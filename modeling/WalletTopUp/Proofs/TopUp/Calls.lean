import Mathlib.Data.List.Forall2
import WalletTopUp.Proofs.TopUp.Serving

/-!
# Top-ups one after the other

`Calls` is a sequence of top-ups, each of which runs alone and to its end. `carried_of_ended` is the step: on a
ledger without debts one call changes the balance and the time of change of the caller's own account at most, it
changes nothing when it fails, and it leaves a ledger without debts. By induction so does every sequence, and no
balance is higher after it than before (`Calls.funded_lowered`).
-/

namespace WalletTopUp

namespace Ledger

/-- A sound ledger without debts. -/
structure Funded (ledger : Ledger) : Prop where
  sound : ledger.Sound
  nonneg : ∀ a ∈ ledger, Decimal.zero ≤ a.balance

/-- The same accounts, none with a higher balance. -/
def Lowered (ledger ledger' : Ledger) : Prop :=
  List.Forall₂ (fun a a' => a'.id = a.id ∧ a'.userId = a.userId ∧ a'.balance ≤ a.balance) ledger ledger'

theorem Lowered.refl (ledger : Ledger) : Lowered ledger ledger :=
  List.forall₂_same.mpr fun _ _ => ⟨rfl, rfl, Int.le_refl _⟩

theorem Lowered.trans {ledger middle ledger' : Ledger} (h : Lowered ledger middle) (h' : Lowered middle ledger') :
    Lowered ledger ledger' := by
  unfold Lowered at h h' ⊢
  induction h generalizing ledger' with
  | nil =>
    cases h'
    exact .nil
  | cons hab _ ih =>
    obtain ⟨hid, huserId, hle⟩ := hab
    cases h' with
    | cons hbc hrest =>
      obtain ⟨hid', huserId', hle'⟩ := hbc
      exact .cons ⟨hid'.trans hid, huserId'.trans huserId, Int.le_trans hle' hle⟩ (ih hrest)

end Ledger

namespace TopUp
open Ledger (Serves Funded Lowered)

/-- The account after a call: its balance is not higher, and nothing else has changed but the time of change, and
that only if the account is the caller's. -/
def Kept (caller : Option User) (a a' : Account) : Prop :=
  a'.balance ≤ a.balance ∧
    (a' = a ∨ (∃ user, caller = some user ∧ a.userId = user.id) ∧
      a' = { a with balance := a'.balance, updatedAt := a'.updatedAt })

/-- What one call does to the ledger. -/
structure Carried (users : String → Option User) (username : String) (request : TopUpRequest)
    (ledger : Ledger) (r : Except Stop Receipt) (ledger' : Ledger) : Prop where
  noOverflow : r ≠ .error .overflow
  funded : ledger'.Funded
  kept : List.Forall₂ (Kept (users username)) ledger ledger'
  unchanged : ∀ stop, r = .error stop → ledger' = ledger
  debited : ∀ receipt, r = .ok receipt → ∃ (user : User) (before : Account) (left : Decimal) (at' : Instant),
    users username = some user ∧ ledger.account? user.id = some before ∧
    before.balance.sub? request.amount = some left ∧
    ledger'.account? user.id = some { before with balance := left, updatedAt := at' }

structure Call where
  username : String
  request : TopUpRequest
  result : Except Stop Receipt

/-- Calls are carried out one after the other. -/
inductive Calls (users : String → Option User) (registry : Registry) : Ledger → List Call → Ledger → Prop
  | nil (ledger : Ledger) : Calls users registry ledger [] ledger
  | snoc {ledger middle ledger' : Ledger} {calls : List Call} {call : Call}
      (earlier : Calls users registry ledger calls middle)
      (last : Performs (Serves users) (topUp registry call.username call.request) middle call.result ledger') :
      Calls users registry ledger (calls ++ [call]) ledger'

section
variable {users : String → Option User} {registry : Registry} {username : String} {request : TopUpRequest}
  {ledger middle ledger' : Ledger} {history : Service.History} {r : Except Stop Receipt} {calls : List Call}

theorem kept_refl (caller : Option User) (a : Account) : Kept caller a a :=
  ⟨Int.le_refl _, .inl rfl⟩

theorem kept_debited {p : Placing} {d : Debit} (hsound : ledger.Sound) (hp : p.Admitted registry request)
    (hd : p.Debits d request) (huser : users username = some p.user)
    (haccount : ledger.account? p.user.id = some p.account) :
    ∀ a ∈ ledger, Kept (users username) a ((p.debited d).after a) ∧
      (Decimal.zero ≤ a.balance → Decimal.zero ≤ ((p.debited d).after a).balance) := by
  obtain ⟨hmem, hcaller⟩ := Ledger.mem_of_account? haccount
  obtain ⟨hnonneg, hle⟩ := hp.left_bounds hd
  intro a ha
  by_cases hid : a.id = p.account.id
  · obtain rfl := hsound.eq_of_id ha hmem hid
    rw [Account.after_of_eq (a := p.debited d) hid]
    exact ⟨⟨hle, .inr ⟨⟨p.user, huser, hcaller⟩, rfl⟩⟩, fun _ => hnonneg⟩
  · rw [Account.after_of_ne (a := p.debited d) hid]
    exact ⟨kept_refl _ _, fun h => h⟩

theorem carried_of_ended (hfunded : ledger.Funded)
    (h : Ended users registry username request ledger history r ledger') :
    Carried users username request ledger r ledger' := by
  rcases h with ⟨fault, -⟩ | ⟨p, d, now, id, hp, hd, huser, haccount⟩
  · constructor
    case noOverflow => simp
    case funded => exact hfunded
    case kept => exact List.forall₂_same.mpr fun a _ => kept_refl _ a
    case unchanged => exact fun _ _ => rfl
    case debited => simp
  · have hkept := kept_debited hfunded.sound hp hd huser haccount
    constructor
    case noOverflow => simp
    case funded =>
      refine ⟨hfunded.sound.write _, ?_⟩
      rw [Ledger.write_eq_map hfunded.sound]
      intro a' ha'
      obtain ⟨a, ha, rfl⟩ := List.mem_map.mp ha'
      exact (hkept a ha).2 (hfunded.nonneg a ha)
    case kept =>
      rw [Ledger.write_eq_map hfunded.sound, List.forall₂_map_right_iff]
      exact List.forall₂_same.mpr fun a ha => (hkept a ha).1
    case unchanged => simp
    case debited =>
      intro _ _
      exact ⟨p.user, p.account, d.balance, d.now, huser, haccount, hd,
        Ledger.account?_write_of_eq hfunded.sound haccount rfl⟩

theorem carried_of_performs (hfunded : ledger.Funded)
    (h : Performs (Serves users) (topUp registry username request) ledger r ledger') :
    Carried users username request ledger r ledger' := by
  obtain ⟨history, hyields, hserved⟩ := h
  exact carried_of_ended hfunded (ended_of_topUp hfunded.sound hyields hserved)

theorem Carried.lowered (h : Carried users username request ledger r ledger') : Lowered ledger ledger' := by
  refine h.kept.imp fun a a' hkept => ?_
  obtain ⟨hle, rfl | ⟨-, hsame⟩⟩ := hkept
  · exact ⟨rfl, rfl, hle⟩
  · exact ⟨congrArg (·.id) hsame, congrArg (·.userId) hsame, hle⟩

theorem Calls.funded_lowered (h : Calls users registry ledger calls ledger') (hfunded : ledger.Funded) :
    ledger'.Funded ∧ Lowered ledger ledger' := by
  induction h with
  | nil => exact ⟨hfunded, Lowered.refl _⟩
  | snoc earlier last ih =>
    obtain ⟨hmiddle, hlowered⟩ := ih
    have hcarried := carried_of_performs hmiddle last
    exact ⟨hcarried.funded, hlowered.trans hcarried.lowered⟩

/-- **Every call of every sequence.** What it does to the ledger, and how the ledger then compares with the one at
the beginning of the sequence. -/
theorem call_after_calls (hfunded : ledger.Funded) (hcalls : Calls users registry ledger calls middle)
    (hcall : Performs (Serves users) (topUp registry username request) middle r ledger') :
    Carried users username request middle r ledger' ∧ Lowered ledger ledger' := by
  obtain ⟨hmiddle, hlowered⟩ := hcalls.funded_lowered hfunded
  have hcarried := carried_of_performs hmiddle hcall
  exact ⟨hcarried, hlowered.trans hcarried.lowered⟩

end

/-- First 60 are taken from 100, then the other 40. -/
theorem call_after_calls_forty :
    Carried Sample.users Sample.user.username (Sample.request Sample.forty) [Sample.account Sample.forty]
        (.ok (Sample.receipt Sample.forty Sample.forty .zero .zero)) [Sample.account .zero] ∧
      Lowered [Sample.account Sample.hundred] [Sample.account .zero] := by
  have hfunded : Funded [Sample.account Sample.hundred] := ⟨Sample.sound, by simp [Sample.account]; decide⟩
  have hfirst := Sample.yields_topUp rfl Sample.sixty_le_hundred Sample.hundred_sub?_sixty
  have hle : Sample.forty ≤ Sample.forty := Int.le_refl _
  have hsub : Sample.forty.sub? Sample.forty = some .zero := by decide
  have hlast := Sample.yields_topUp rfl hle hsub
  have hcalls : Calls Sample.users Sample.registry [Sample.account Sample.hundred]
      [⟨Sample.user.username, Sample.request Sample.sixty, _⟩] [Sample.account Sample.forty] :=
    .snoc (.nil _) ⟨_, hfirst, Sample.served⟩
  exact call_after_calls hfunded hcalls ⟨_, hlast, Sample.served⟩

end TopUp

end WalletTopUp
