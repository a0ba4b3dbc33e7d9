import Mathlib.Algebra.BigOperators.Group.Finset.Basic
import Mathlib.Algebra.Order.BigOperators.Group.List
import Mathlib.Data.Fintype.BigOperators
import WalletTopUp.Proofs.TopUp.Schedule
import WalletTopUp.Proofs.TopUp.Serving

/-!
# Top-ups that overlap

Several top-ups of one account run at once, and the ledger answers their questions in any order. Each writes back
the difference of the balance that it has read and its amount. So the balance in the end is the one in the
beginning with the amounts of the runs in `kept` taken off, one after the other, and not of all that wrote
(`overlapped_of_interleaved`). No debit is lost if and only if no run writes between the read and the write of
another. Nothing in a top-up sees to that: two overlapping top-ups of 60 both succeed on a balance of 100
(`both_accepted`).
-/

namespace WalletTopUp

namespace Decimal

/-- What is left of a balance when amounts are taken off it one after the other. -/
def leftOf (balance : Decimal) (amounts : List Decimal) : Option Decimal := amounts.foldlM sub? balance

/-- None of these differences is rounded. -/
def Unrounded : Decimal → List Decimal → Prop
  | _, [] => True
  | balance, amount :: amounts => ∀ left, balance.sub? amount = some left →
    left.value = balance.value - amount.value ∧ Unrounded left amounts

theorem leftOf_concat (balance amount : Decimal) (amounts : List Decimal) :
    leftOf balance (amounts ++ [amount]) = (leftOf balance amounts).bind (·.sub? amount) := by
  simp [leftOf, List.foldlM_append]

theorem value_leftOf {balance left : Decimal} {amounts : List Decimal} (h : leftOf balance amounts = some left)
    (hexact : Unrounded balance amounts) : left.value = balance.value - (amounts.map value).sum := by
  induction amounts generalizing balance with
  | nil =>
    obtain rfl : balance = left := by simpa [leftOf] using h
    simp
  | cons amount amounts ih =>
    obtain ⟨middle, hmiddle, hrest⟩ : ∃ middle, balance.sub? amount = some middle ∧
        leftOf middle amounts = some left := by
      simpa [leftOf, Option.bind_eq_some_iff] using h
    obtain ⟨hvalue, hexact⟩ := hexact middle hmiddle
    rw [ih hrest hexact, hvalue, List.map_cons, List.sum_cons, sub_sub]

end Decimal

/-! ## Lists -/

theorem append_cons_inj_of_countP {α : Type} {P : α → Bool} {first rest first' rest' : List α} {x y : α}
    (h : first ++ x :: rest = first' ++ y :: rest') (hx : P x) (hfirst : first'.countP P = 0)
    (hrest : rest'.countP P = 0) : first = first' ∧ x = y ∧ rest = rest' := by
  rw [List.countP_eq_zero] at hfirst hrest
  rcases List.append_eq_append_iff.mp h with ⟨between, rfl, htail⟩ | ⟨between, rfl, htail⟩
  · rcases between with _ | ⟨z, between⟩
    · obtain ⟨rfl, rfl⟩ := List.cons.inj htail
      exact ⟨(List.append_nil _).symm, rfl, rfl⟩
    · obtain ⟨rfl, -⟩ := List.cons.inj htail
      exact absurd hx (hfirst x (by simp))
  · rcases between with _ | ⟨z, between⟩
    · obtain ⟨rfl, rfl⟩ := List.cons.inj htail
      exact ⟨List.append_nil _, rfl, rfl⟩
    · obtain ⟨-, rfl⟩ := List.cons.inj htail
      exact absurd hx (hrest x (by simp))

/-- A part of a list of positive numbers with the same sum is the whole list. -/
theorem eq_of_sublist_of_sum_eq {ι : Type} {f : ι → Rat} {l l' : List ι} (h : List.Sublist l l')
    (hpos : ∀ i ∈ l', 0 < f i) (hsum : (l.map f).sum = (l'.map f).sum) : l = l' := by
  induction h with
  | slnil => rfl
  | cons i h ih =>
    rw [List.map_cons, List.sum_cons] at hsum
    have hle : (List.map f _).sum ≤ (List.map f _).sum := (h.map f).sum_le_sum (by
      intro x hx
      obtain ⟨j, hj, rfl⟩ := List.mem_map.mp hx
      exact (hpos j (List.mem_cons_of_mem _ hj)).le)
    have := hpos i List.mem_cons_self
    linarith
  | cons_cons i h ih =>
    rw [List.map_cons, List.sum_cons, List.map_cons, List.sum_cons, add_right_inj] at hsum
    rw [ih (fun j hj => hpos j (List.mem_cons_of_mem _ hj)) hsum]

namespace TopUp
open Ledger (Serves Stores)
open Service (isAcceptance isRead isWrite)

/-! ## The write of one run -/

section
variable {registry : Registry} {username : String} {request : TopUpRequest} {history : Service.History}
  {r : Except Stop Receipt}

theorem Settled.write_cases {p : Placing} (h : Settled username request p history r) :
    (history.countP isWrite = 0 ∧ history.countP isAcceptance = 0) ∨
    ∃ (d : Debit) (written : Except Fault Nat) (tail : Service.History), p.Debits d request ∧
      history = p.debitHistory d request written ++ tail ∧
      tail.countP isWrite = 0 ∧ tail.countP isAcceptance = 0 := by
  rcases h with _ | _ | ⟨d, hd, fault⟩ | ⟨d, hd, rows, fault⟩ | ⟨d, hd, rows⟩ |
    ⟨d, hd, rows, current, now, id⟩
  · exact .inl ⟨rfl, rfl⟩
  · exact .inl ⟨rfl, rfl⟩
  · exact .inr ⟨d, .error fault, [], hd, (List.append_nil _).symm, rfl, rfl⟩
  all_goals exact .inr ⟨d, .ok rows, _, hd, rfl, rfl, rfl⟩

theorem yields_topUp_cases (h : (topUp registry username request).Yields history r) :
    (history.countP isWrite = 0 ∧ history.countP isAcceptance = 0) ∨
    ∃ (p : Placing) (d : Debit) (written : Except Fault Nat) (tail : Service.History),
      p.Admitted registry request ∧ p.Debits d request ∧
      history = p.history username ++ (p.debitHistory d request written ++ tail) ∧
      tail.countP isWrite = 0 ∧ tail.countP isAcceptance = 0 := by
  obtain ⟨first, hfirst, rfl⟩ := yields_topUp_iff.mp h
  obtain ⟨hwrites, hacceptances, -⟩ := counted_spec request r
  rcases yields_execute_iff.mp hfirst with ⟨fault, hrefused, rfl⟩ | ⟨p, rest, hp, rfl, hsettled⟩
  · left
    rw [List.countP_append, List.countP_append, hwrites, hacceptances]
    rcases hrefused.history_cases with rfl | ⟨answer, rfl⟩ | ⟨user, answer, rfl⟩ <;> exact ⟨rfl, rfl⟩
  · rcases hsettled.write_cases with ⟨hw, ha⟩ | ⟨d, written, tail, hd, rfl, hw, ha⟩
    · left
      rw [List.countP_append, List.countP_append, List.countP_append, List.countP_append, hwrites, hacceptances,
        hw, ha]
      exact ⟨rfl, rfl⟩
    · refine .inr ⟨p, d, written, tail ++ counted request r, hp, hd, by simp, ?_, ?_⟩
      · rw [List.countP_append, hw, hwrites]
      · rw [List.countP_append, ha, hacceptances]

theorem countP_isWrite_of_yields (h : (topUp registry username request).Yields history r) :
    history.countP isWrite = history.countP isAcceptance ∧ history.countP isWrite ≤ 1 := by
  rcases yields_topUp_cases h with ⟨hw, ha⟩ | ⟨p, d, written, tail, -, -, rfl, hw, ha⟩
  · rw [hw, ha]
    exact ⟨rfl, Nat.zero_le _⟩
  · have hbefore : (p.history username).countP isWrite = 0 ∧ (p.history username).countP isAcceptance = 0 :=
      ⟨rfl, rfl⟩
    have hdebit : (p.debitHistory d request written).countP isWrite = 1 ∧
        (p.debitHistory d request written).countP isAcceptance = 1 := ⟨rfl, rfl⟩
    rw [List.countP_append, List.countP_append, List.countP_append, List.countP_append, hw, ha, hbefore.1,
      hbefore.2, hdebit.1, hdebit.2]
    exact ⟨rfl, Nat.le_refl _⟩

/-- The entries between the read of the account and its write. -/
def Placing.sinceRead (p : Placing) (d : Debit) (request : TopUpRequest) : Service.History :=
  [⟨.now, p.now⟩, ⟨.fresh, p.id⟩, ⟨.orderTopUp p.provider (p.order request), .ok (some d.acceptance)⟩,
    ⟨.now, d.now⟩]

theorem before_write_of_yields {before after : Service.History} {account : Account} {written : Except Fault Nat}
    (h : (topUp registry username request).Yields (before ++ ⟨.writeBalance account, written⟩ :: after) r) :
    ∃ (p : Placing) (d : Debit), p.Admitted registry request ∧ p.Debits d request ∧ account = p.debited d ∧
      before = [⟨.findUser username, .ok (some p.user)⟩] ++
        ⟨.readAccount p.user.id, .ok (some p.account)⟩ :: p.sinceRead d request := by
  have hwrite : isWrite ⟨.writeBalance account, written⟩ = true := rfl
  rcases yields_topUp_cases h with ⟨hw, -⟩ | ⟨p, d, written', tail, hp, hd, hdebit, hw, -⟩
  · rw [List.countP_eq_zero] at hw
    exact absurd hwrite (hw _ (by simp))
  · have hsplit : before ++ ⟨.writeBalance account, written⟩ :: after =
        [⟨.findUser username, .ok (some p.user)⟩] ++ ⟨.readAccount p.user.id, .ok (some p.account)⟩ ::
          p.sinceRead d request ++ ⟨.writeBalance (p.debited d), written'⟩ :: tail := hdebit
    obtain ⟨hbefore, hentry, -⟩ := append_cons_inj_of_countP hsplit hwrite rfl hw
    obtain ⟨haccount, -⟩ : account = p.debited d ∧ written = written' := by simpa using hentry
    exact ⟨p, d, hp, hd, haccount, hbefore⟩

end

/-! ## All runs -/

/-- Top-ups of one account run at once, each to its end. No writing fails. -/
structure Overlap {ι : Type} [DecidableEq ι] (users : String → Option User) (registry : Registry)
    (username : ι → String) (request : ι → TopUpRequest) (account : Account) (ledger : Ledger) (log : Log ι)
    (result : ι → Except Stop Receipt) (ledger' : Ledger) : Prop where
  run : Interleaved (Serves users) (fun i => topUp registry (username i) (request i)) ledger log result ledger'
  sound : ledger.Sound
  held : ledger.account? account.userId = some account
  owner : ∀ i user, users (username i) = some user → user.id = account.userId
  stores : Stores (log.map (·.2))

section
variable {ι : Type} [DecidableEq ι] {users : String → Option User} {registry : Registry}
  {username : ι → String} {request : ι → TopUpRequest} {account : Account} {ledger ledger' : Ledger} {log : Log ι}
  {result : ι → Except Stop Receipt}

theorem Overlap.based_of_write (h : Overlap users registry username request account ledger log result ledger')
    {done rest : Log ι} {i : ι} {debited : Account} {written : Except Fault Nat}
    (hlog : log = done ++ (i, ⟨.writeBalance debited, written⟩) :: rest) :
    ∃ (before between : Log ι) (a : Account),
      done = before ++ (i, ⟨.readAccount account.userId, .ok (some a)⟩) :: between ∧ Unread i between ∧
      debited.id = a.id ∧ a.balance.sub? (request i).amount = some debited.balance ∧
      Decimal.zero ≤ debited.balance ∧ 0 < (request i).amount.value := by
  have hyields := h.run.yields i
  have hentries : entriesOf i log = entriesOf i done ++ ⟨.writeBalance debited, written⟩ :: entriesOf i rest := by
    rw [hlog, entriesOf_append, entriesOf_cons_self]
  rw [hentries] at hyields
  obtain ⟨p, d, hp, hd, rfl, hdone⟩ := before_write_of_yields hyields
  obtain ⟨before, between, rfl, hbefore, hbetween⟩ := exists_of_entriesOf_eq hdone
  have hfound : (⟨.findUser (username i), .ok (some p.user)⟩ : Service.Entry) ∈ log.map (·.2) := by
    have hmem : (i, (⟨.findUser (username i), .ok (some p.user)⟩ : Service.Entry)) ∈ before := by
      rw [← mem_entriesOf, hbefore]
      exact List.mem_singleton_self _
    have hlogged : (i, (⟨.findUser (username i), .ok (some p.user)⟩ : Service.Entry)) ∈ log := by
      rw [hlog]
      simp [hmem]
    exact List.mem_map.mpr ⟨_, hlogged, rfl⟩
  obtain ⟨_, _, hserves⟩ := h.run.served.exists_of_mem hfound
  have howner : p.user.id = account.userId := h.owner i p.user (Except.ok.inj hserves.1).symm
  have hunread : Unread i between := by
    rintro ⟨j, entry⟩ hx rfl
    have hmem : entry ∈ p.sinceRead d (request j) := by
      rw [← hbetween]
      exact mem_entriesOf.mpr hx
    simp only [Placing.sinceRead, List.mem_cons, List.not_mem_nil, or_false] at hmem
    rcases hmem with rfl | rfl | rfl | rfl <;> simp [isRead]
  exact ⟨before, between, p.account, by rw [howner], hunread, rfl, hd, (hp.left_bounds hd).1,
    TopUpRequest.value_pos_of_validate hp.valid⟩

/-- The account is what is left of it without the debits that it keeps. -/
structure Holds (account : Account) (request : ι → TopUpRequest) (done : Log ι) (ledger : Ledger) : Prop where
  sound : ledger.Sound
  held : ∃ a : Account, ledger.account? account.userId = some a ∧ a.id = account.id ∧
    account.balance.leftOf ((kept done).map fun i => (request i).amount) = some a.balance ∧
    (Decimal.zero ≤ account.balance → Decimal.zero ≤ a.balance)

/-- One entry. A write is based on a read, so this needs what was in the account at every earlier time. -/
theorem Overlap.holds_snoc (h : Overlap users registry username request account ledger log result ledger')
    {done rest : Log ι} {x : ι × Service.Entry} {middle next : Ledger} (hlog : log = done ++ x :: rest)
    (hearlier : ∀ before after, done = before ++ after → ∀ earlier,
      Served (Serves users) ledger (before.map (·.2)) earlier → Holds account request before earlier)
    (hserved : Served (Serves users) ledger (done.map (·.2)) middle) (hserves : Serves users middle x.2 next) :
    Holds account request (done ++ [x]) next := by
  obtain ⟨hsound, a, haccount, hid, hleft, hnonneg⟩ := hearlier done [] (List.append_nil done).symm middle hserved
  obtain ⟨i, entry⟩ := x
  by_cases hwrite : isWrite entry
  · obtain ⟨debited, written, rfl⟩ := isWrite_iff.mp hwrite
    obtain ⟨before, between, b, rfl, hbetween, hwid, hsub, hpos, -⟩ := h.based_of_write hlog
    rw [List.map_append, served_append_iff] at hserved
    obtain ⟨earlier, hserved, hrest⟩ := hserved
    obtain ⟨-, b', hb', hid', hleft', -⟩ := hearlier before _ rfl earlier hserved
    rw [List.map_cons, served_cons_iff] at hrest
    obtain ⟨_, ⟨hread, -⟩, -⟩ := hrest
    obtain rfl : b = b' := by simpa [hb'] using hread
    rcases written with fault | rows
    · have hfailed : (i, (⟨.writeBalance debited, .error fault⟩ : Service.Entry)) ∈ log := by
        rw [hlog]
        simp
      exact absurd (List.mem_map.mpr ⟨_, hfailed, rfl⟩) (h.stores debited fault)
    obtain ⟨-, rfl⟩ := hserves
    have hafter := Ledger.account?_write_of_eq hsound haccount (hid.trans (hid'.symm.trans hwid.symm))
    refine ⟨hsound.write _, _, hafter, hid, ?_, fun _ => hpos⟩
    rw [kept_of_based i before between rfl hbetween hwrite, List.map_append, List.map_singleton,
      Decimal.leftOf_concat, hleft']
    exact hsub
  · obtain rfl := eq_of_serves hserves (by simpa using hwrite)
    refine ⟨hsound, a, haccount, hid, ?_, hnonneg⟩
    rwa [kept_snoc_other done i hwrite]

theorem Overlap.holds (h : Overlap users registry username request account ledger log result ledger') :
    Holds account request log ledger' := by
  have hprefix := forall_prefix (l := log)
    (P := fun done => ∀ middle, Served (Serves users) ledger (done.map (·.2)) middle →
      Holds account request done middle)
  refine hprefix ?nil ?snoc log [] (List.append_nil log).symm ledger' h.run.served
  case nil =>
    intro middle hserved
    obtain rfl := served_nil_iff.mp hserved
    exact ⟨h.sound, account, h.held, rfl, rfl, fun h => h⟩
  case snoc =>
    intro done x rest hlog ih next hserved
    rw [List.map_append, served_append_iff] at hserved
    obtain ⟨middle, hserved, hlast⟩ := hserved
    have hserves : Serves users middle x.2 next := by simpa using hlast
    exact h.holds_snoc hlog ih hserved hserves

theorem Overlap.readFirst (h : Overlap users registry username request account ledger log result ledger') :
    ReadFirst log := by
  intro done i entry rest hlog hwrite hunread
  obtain ⟨debited, written, rfl⟩ := isWrite_iff.mp hwrite
  obtain ⟨before, between, a, rfl, -⟩ := h.based_of_write hlog
  exact hunread (i, ⟨.readAccount account.userId, .ok (some a)⟩) (by simp) rfl rfl

theorem count_writers (log : Log ι) (i : ι) : (writers log).count i = (entriesOf i log).countP isWrite := by
  induction log with
  | nil => rfl
  | cons x log ih =>
    obtain ⟨j, entry⟩ := x
    have hcons : writers ((j, entry) :: log) = (if isWrite entry then [j] else []) ++ writers log := by
      by_cases hwrite : isWrite entry <;> simp [writers, hwrite]
    rw [hcons, List.count_append, ih]
    by_cases hj : j = i
    · subst hj
      rw [entriesOf_cons_self, List.countP_cons]
      split_ifs <;> simp [Nat.add_comm]
    · rw [entriesOf_cons_of_ne hj]
      split_ifs <;> simp [hj]

def accepted (log : Log ι) (i : ι) : Bool := (entriesOf i log).any isAcceptance

theorem Overlap.count_writers_le (h : Overlap users registry username request account ledger log result ledger')
    (i : ι) : (writers log).count i ≤ 1 := by
  rw [count_writers]
  exact (countP_isWrite_of_yields (h.run.yields i)).2

theorem Overlap.mem_writers_iff (h : Overlap users registry username request account ledger log result ledger')
    {i : ι} : i ∈ writers log ↔ accepted log i := by
  rw [← List.count_pos_iff, count_writers, (countP_isWrite_of_yields (h.run.yields i)).1, List.countP_pos_iff,
    accepted, List.any_eq_true]

theorem Overlap.amount_pos (h : Overlap users registry username request account ledger log result ledger')
    {i : ι} (hi : i ∈ writers log) : 0 < (request i).amount.value := by
  obtain ⟨entry, hmem, hwrite⟩ := mem_writers.mp hi
  obtain ⟨debited, written, rfl⟩ := isWrite_iff.mp hwrite
  obtain ⟨done, rest, hlog⟩ := List.append_of_mem hmem
  obtain ⟨_, _, _, -, -, -, -, -, hpos⟩ := h.based_of_write hlog
  exact hpos

/-- What is left of the balance of an account after overlapping top-ups. -/
structure Overlapped [Fintype ι] (amount : ι → Decimal) (log : Log ι) (balance left : Decimal) : Prop where
  wroteOnce : (writers log).Nodup
  wrote_iff : ∀ i, i ∈ writers log ↔ accepted log i
  kept_sublist : List.Sublist (kept log) (writers log)
  last_kept : (kept log).getLast? = (writers log).getLast?
  left_eq : balance.leftOf ((kept log).map amount) = some left
  kept_iff : kept log = writers log ↔ Undisturbed log
  sum_iff : balance.Unrounded ((kept log).map amount) →
    (left.value = balance.value - ∑ i with accepted log i, (amount i).value ↔ Undisturbed log)
  covered : balance.Unrounded ((kept log).map amount) → Undisturbed log → 0 ≤ balance.value →
    ∑ i with accepted log i, (amount i).value ≤ balance.value

/-- **Overlapping top-ups.** The account keeps the debits of some of the accepted runs, and of all of them if and
only if no run writes between the read and the write of another. -/
theorem overlapped_of_interleaved [Fintype ι]
    (h : Overlap users registry username request account ledger log result ledger') :
    ∃ a : Account, ledger'.account? account.userId = some a ∧
      Overlapped (fun i => (request i).amount) log account.balance a.balance := by
  obtain ⟨-, a, haccount, -, hleft, hnonneg⟩ := h.holds
  have hnodup : (writers log).Nodup := List.nodup_iff_count_le_one.mpr h.count_writers_le
  have hsublist := (kept_seen_sublist log).1
  have hkept := kept_eq_writers_iff h.readFirst
  have haccepted : ∑ i with accepted log i, (request i).amount.value =
      ((writers log).map fun i => (request i).amount.value).sum := by
    have hset : Finset.univ.filter (fun i => accepted log i) = (writers log).toFinset := by
      ext i
      simp [h.mem_writers_iff]
    rw [hset, List.sum_toFinset _ hnodup]
  have hsum : account.balance.Unrounded ((kept log).map fun i => (request i).amount) →
      (a.balance.value = account.balance.value - ∑ i with accepted log i, (request i).amount.value ↔
        Undisturbed log) := by
    intro hexact
    rw [Decimal.value_leftOf hleft hexact, List.map_map, haccepted, sub_right_inj, ← hkept]
    constructor
    · exact eq_of_sublist_of_sum_eq hsublist fun i hi => h.amount_pos hi
    · intro heq
      rw [heq]
      rfl
  refine ⟨a, haccount, hnodup, fun i => h.mem_writers_iff, hsublist, getLast?_kept log, hleft, hkept, hsum, ?_⟩
  intro hexact hundisturbed hbalance
  have hvalue := (hsum hexact).mpr hundisturbed
  have hpos := Decimal.zero_le_iff.mp (hnonneg (Decimal.zero_le_iff.mpr hbalance))
  linarith

end

namespace Sample

/-- Two top-ups of 60 are both checked before one of them is settled. -/
def overlapping : Log Bool :=
  ((placing hundred).history user.username).map (false, ·) ++
    (((placing hundred).history user.username).map (true, ·) ++
      ((settlement hundred sixty forty).map (false, ·) ++ (settlement hundred sixty forty).map (true, ·)))

theorem entriesOf_overlapping (i : Bool) : entriesOf i overlapping = wholeHistory hundred sixty forty := by
  cases i <;>
    simp [overlapping, entriesOf_append, entriesOf_map_self, entriesOf_map_of_ne, wholeHistory]

theorem overlap : Overlap users registry (fun _ : Bool => user.username) (fun _ => request sixty)
    (account hundred) [account hundred] overlapping (fun _ => .ok (receipt hundred sixty forty forty))
    [account forty] := by
  have hentries : overlapping.map (·.2) =
      (placing hundred).history user.username ++ ((placing hundred).history user.username ++
        (settlement hundred sixty forty ++ settlement hundred sixty forty)) := by
    simp [overlapping]
  constructor
  case run =>
    constructor
    case yields =>
      intro i
      rw [entriesOf_overlapping]
      exact yields_topUp rfl sixty_le_hundred hundred_sub?_sixty
    case served =>
      rw [hentries]
      refine served_append_iff.mpr ⟨_, served_checks, served_append_iff.mpr ⟨_, served_checks, ?_⟩⟩
      exact served_append_iff.mpr ⟨_, served_settlement hundred, served_settlement forty⟩
  case sound => exact sound
  case held => rfl
  case owner =>
    intro _ u hu
    obtain rfl : user = u := Option.some.inj hu
    rfl
  case stores =>
    intro a fault hmem
    have hstores : Stores (wholeHistory hundred sixty forty) := stores
    have hnot := hstores a fault
    rw [hentries, List.mem_append, List.mem_append, List.mem_append] at hmem
    rw [wholeHistory, List.mem_append, not_or] at hnot
    rcases hmem with hmem | hmem | hmem | hmem
    · exact hnot.1 hmem
    · exact hnot.1 hmem
    · exact hnot.2 hmem
    · exact hnot.2 hmem

end Sample

theorem overlapped_sixty_sixty :
    ∃ a : Account, Ledger.account? [Sample.account Sample.forty] (Sample.account Sample.hundred).userId = some a ∧
      Overlapped (fun _ => (Sample.request Sample.sixty).amount) Sample.overlapping
        (Sample.account Sample.hundred).balance a.balance :=
  overlapped_of_interleaved Sample.overlap

/-- Both are accepted and both get a receipt. Together they are more than the balance, and one debit is lost. -/
theorem both_accepted :
    ∃ (log : Log Bool) (result : Bool → Except Stop Receipt),
      Overlap Sample.users Sample.registry (fun _ => Sample.user.username) (fun _ => Sample.request Sample.sixty)
        (Sample.account Sample.hundred) [Sample.account Sample.hundred] log result
        [Sample.account Sample.forty] ∧
      (∀ i, (result i).isOk) ∧ (∀ i, accepted log i) ∧
      Sample.hundred.value < ∑ i with accepted log i, Sample.sixty.value ∧
      Sample.forty.value ≠ Sample.hundred.value - ∑ i with accepted log i, Sample.sixty.value := by
  have haccepted : ∀ i, accepted Sample.overlapping i := by
    intro i
    rw [accepted, Sample.entriesOf_overlapping]
    rfl
  have hsum : ∑ i with accepted Sample.overlapping i, Sample.sixty.value = 120 := by
    have hsixty : Sample.sixty.value = 60 := by
      norm_num [Decimal.value, Decimal.coefficient, Sample.sixty, Sample.whole]
    simp only [haccepted, Finset.filter_true, Finset.sum_const, Finset.card_univ, Fintype.card_bool, hsixty]
    norm_num
  have hhundred : Sample.hundred.value = 100 := by
    norm_num [Decimal.value, Decimal.coefficient, Sample.hundred, Sample.whole]
  have hforty : Sample.forty.value = 40 := by
    norm_num [Decimal.value, Decimal.coefficient, Sample.forty, Sample.whole]
  refine ⟨_, _, Sample.overlap, fun _ => rfl, haccepted, ?_, ?_⟩
  · rw [hsum, hhundred]
    norm_num
  · rw [hsum, hhundred, hforty]
    norm_num

end TopUp

end WalletTopUp
