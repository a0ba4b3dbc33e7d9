import WalletTopUp.Proofs.Store.Ledger
import WalletTopUp.Proofs.TopUp.Effects

/-!
# A top-up on a ledger

`Serves users` answers a top-up from a ledger in memory: users are found by their names, accounts are read as
they stand, and a writing either takes place or fails and changes nothing. All other collaborators answer as
they like. A top-up that runs alone on a sound ledger has two ways to end (`Ended`): it failed and the ledger is
as it was, or it has debited the account that it read and has a receipt for it.
-/

namespace WalletTopUp

namespace Ledger

/-- From one ledger to the next the question of an entry may be answered as the entry says. -/
def Serves (users : String → Option User) (ledger : Ledger) (entry : Service.Entry) (ledger' : Ledger) : Prop :=
  match entry with
  | ⟨.findUser username, answer⟩ => answer = .ok (users username) ∧ ledger' = ledger
  | ⟨.readAccount userId, answer⟩ => answer = .ok (ledger.account? userId) ∧ ledger' = ledger
  | ⟨.writeBalance account, .ok rows⟩ => rows = ledger.writes account ∧ ledger' = ledger.write account
  | ⟨.writeBalance _, .error _⟩ => ledger' = ledger
  | _ => ledger' = ledger

/-- No writing has failed. -/
def Stores (history : Service.History) : Prop :=
  ∀ account fault, (⟨.writeBalance account, .error fault⟩ : Service.Entry) ∉ history

end Ledger

namespace TopUp
open Ledger (Serves Stores)
open Service (isAcceptance)

section
variable {users : String → Option User} {registry : Registry} {username : String} {request : TopUpRequest}
  {ledger ledger' : Ledger} {history : Service.History} {r : Except Stop Receipt}

/-- The ways in which a top-up alone on a ledger ends. -/
inductive Ended (users : String → Option User) (registry : Registry) (username : String)
    (request : TopUpRequest) (ledger : Ledger) (history : Service.History) :
    Except Stop Receipt → Ledger → Prop
  /-- It fails and leaves the ledger as it is. -/
  | failed (fault : Fault) (cause : history.countP isAcceptance = 0 ∨ ¬ Stores history) :
      Ended users registry username request ledger history (.error (.fault fault)) ledger
  /-- It writes the debit of the account that it has read, and what it reads then is what it has written. -/
  | debited (p : Placing) (d : Debit) (now : Instant) (id : Uuid) (admitted : p.Admitted registry request)
      (debits : p.Debits d request) (user : users username = some p.user)
      (account : ledger.account? p.user.id = some p.account) :
      Ended users registry username request ledger history
        (.ok (p.record d request (p.debited d) now id).receipt) (ledger.write (p.debited d))

theorem eq_of_serves {entry : Service.Entry} (h : Serves users ledger entry ledger')
    (hwrite : Service.isWrite entry = false) : ledger' = ledger := by
  obtain ⟨question, answer⟩ := entry
  cases question with
  | findUser | readAccount => exact h.2
  | writeBalance => simp [Service.isWrite] at hwrite
  | _ => exact h

theorem eq_of_served {history : Service.History} (h : Served (Serves users) ledger history ledger')
    (hwrites : history.countP Service.isWrite = 0) : ledger' = ledger := by
  induction h with
  | nil => rfl
  | cons h rest ih =>
    rw [List.countP_eq_zero] at hwrites
    have hhead := hwrites _ List.mem_cons_self
    have htail := List.countP_eq_zero.mpr fun entry hentry => hwrites entry (List.mem_cons_of_mem _ hentry)
    rw [ih htail, eq_of_serves h (by simpa using hhead)]

theorem served_placing_iff {p : Placing} :
    Served (Serves users) ledger (p.history username ++ history) ledger' ↔
      users username = some p.user ∧ ledger.account? p.user.id = some p.account ∧
        Served (Serves users) ledger history ledger' := by
  simp [Placing.history, Serves, eq_comm]

theorem served_debit_iff {p : Placing} {d : Debit} {rows : Nat} :
    Served (Serves users) ledger (p.debitHistory d request (.ok rows) ++ history) ledger' ↔
      rows = ledger.writes (p.debited d) ∧
        Served (Serves users) (ledger.write (p.debited d)) history ledger' := by
  simp [Placing.debitHistory, Serves]

theorem ended_of_execute (hsound : ledger.Sound)
    (hyields : (execute registry username request).run.Yields history r)
    (hserved : Served (Serves users) ledger history ledger') :
    Ended users registry username request ledger history r ledger' := by
  rcases yields_execute_iff.mp hyields with ⟨fault, hrefused, rfl⟩ | ⟨p, rest, hp, rfl, hsettled⟩
  · rcases hrefused.history_cases with rfl | ⟨answer, rfl⟩ | ⟨user, answer, rfl⟩ <;>
      exact eq_of_served hserved rfl ▸ .failed fault (.inl rfl)
  · obtain ⟨huser, haccount, hrest⟩ := served_placing_iff.mp hserved
    have hreread : ∀ d : Debit, (ledger.write (p.debited d)).account? p.user.id = some (p.debited d) := fun d =>
      Ledger.account?_write_of_eq hsound haccount rfl
    rcases hsettled with _ | _ | ⟨d, hd, fault⟩ | ⟨d, hd, rows, fault⟩ | ⟨d, hd, rows⟩ |
      ⟨d, hd, rows, current, now, id⟩
    · exact eq_of_served hserved rfl ▸ .failed _ (.inl rfl)
    · exact eq_of_served hserved rfl ▸ .failed _ (.inl rfl)
    · have hfailed : ¬ Stores (p.history username ++ p.debitHistory d request (.error fault)) := by
        intro hstores
        exact hstores (p.debited d) fault (by simp [Placing.debitHistory])
      obtain rfl : ledger' = ledger := by simpa [Placing.debitHistory, Serves] using hrest
      exact .failed fault (.inr hfailed)
    -- the account has been written, so it is found again
    · obtain ⟨-, hread⟩ := served_debit_iff.mp hrest
      simp [Serves, hreread] at hread
    · obtain ⟨-, hread⟩ := served_debit_iff.mp hrest
      simp [Serves, hreread] at hread
    · obtain ⟨-, hread⟩ := served_debit_iff.mp hrest
      obtain ⟨rfl, rfl⟩ : current = p.debited d ∧ ledger' = ledger.write (p.debited d) := by
        simpa [Serves, hreread] using hread
      exact .debited p d now id hp hd huser haccount

theorem counted_spec (request : TopUpRequest) (r : Except Stop Receipt) :
    (counted request r).countP Service.isWrite = 0 ∧ (counted request r).countP isAcceptance = 0 ∧
      Stores (counted request r) := by
  rcases r with (fault | _) | receipt
  · exact ⟨rfl, rfl, by simp [Stores, counted]⟩
  · exact ⟨rfl, rfl, by simp [Stores, counted]⟩
  · exact ⟨rfl, rfl, by simp [Stores, counted]⟩

/-- **A top-up alone on a ledger** has two ways to end. -/
theorem ended_of_topUp (hsound : ledger.Sound) (hyields : (topUp registry username request).Yields history r)
    (hserved : Served (Serves users) ledger history ledger') :
    Ended users registry username request ledger history r ledger' := by
  obtain ⟨first, hfirst, rfl⟩ := yields_topUp_iff.mp hyields
  obtain ⟨middle, hserved, hrest⟩ := served_append_iff.mp hserved
  obtain ⟨hwrites, hacceptances, hstores⟩ := counted_spec request r
  obtain rfl := eq_of_served hrest hwrites
  rcases ended_of_execute hsound hfirst hserved with ⟨fault, hcause⟩ | ⟨p, d, now, id, hp, hd, huser, haccount⟩
  · refine .failed fault ?_
    rw [List.countP_append, hacceptances, Nat.add_zero]
    refine hcause.imp id fun hfailed hall => hfailed fun account fault hmem => ?_
    exact hall account fault (List.mem_append_left _ hmem)
  · exact .debited p d now id hp hd huser haccount

end

/-! ## The small wallet -/

namespace Sample

def users (username : String) : Option User := if username = user.username then some user else none

variable {balance amount left : Decimal}

theorem sound : Ledger.Sound [account balance] := ⟨by simp, by simp⟩

def settlement (balance amount left : Decimal) : Service.History :=
  (placing balance).debitHistory (debit left) (request amount) (.ok 1) ++
    (ending balance amount left left ++ counted (request amount) (.ok (receipt balance amount left left)))

def wholeHistory (balance amount left : Decimal) : Service.History :=
  (placing balance).history user.username ++ settlement balance amount left

theorem yields_topUp (hpos : amount.isPositive = true) (hle : amount ≤ balance)
    (h : balance.sub? amount = some left) :
    (topUp registry user.username (request amount)).Yields (wholeHistory balance amount left)
      (.ok (receipt balance amount left left)) := by
  refine yields_topUp_iff.mpr ⟨_, yields_execute left hpos hle h, ?_⟩
  simp [wholeHistory, settlement, history]

theorem served_checks :
    Served (Serves users) [account balance] ((placing balance).history user.username) [account balance] := by
  have huser : users user.username = some user := rfl
  have hread : Ledger.account? [account balance] user.id = some (account balance) := rfl
  have hchecks := (served_placing_iff (p := placing balance)).mpr ⟨huser, hread, .nil _⟩
  rwa [List.append_nil] at hchecks

/-- The balance that is written does not depend on the one that is there. -/
theorem served_settlement (other : Decimal) :
    Served (Serves users) [account other] (settlement balance amount left) [account left] := by
  have hwrite : Ledger.write [account other] ((placing balance).debited (debit left)) = [account left] := rfl
  have hread : Ledger.account? [account left] user.id = some (account left) := rfl
  refine served_debit_iff.mpr ⟨rfl, ?_⟩
  rw [hwrite]
  simp [ending, counted, Serves, hread]

theorem served : Served (Serves users) [account balance] (wholeHistory balance amount left) [account left] :=
  served_append_iff.mpr ⟨_, served_checks, served_settlement balance⟩

theorem accepted : (wholeHistory balance amount left).countP isAcceptance = 1 := rfl

theorem stores : Stores (wholeHistory balance amount left) := by
  intro account fault hmem
  simp [wholeHistory, settlement, Placing.history, Placing.debitHistory, ending, counted] at hmem

end Sample

end TopUp

end WalletTopUp
