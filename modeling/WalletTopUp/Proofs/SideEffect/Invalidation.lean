import Mathlib.Algebra.BigOperators.Fin
import Mathlib.Algebra.Order.BigOperators.Group.Finset
import WalletTopUp.Proofs.Retry.Course
import WalletTopUp.Proofs.Store.Cache
import WalletTopUp.Proofs.TopUp.FollowUp
import WalletTopUp.Proofs.Underway

/-!
# The tasks after a top-up, all at once

The tasks after a top-up run at once over one cache, and any of their deletions may fail. Whatever order their steps
take place in, the entries that are left and the report are the same (`afterTopUp_determined`). For a deletion removes
what its test covers no matter what others have removed, what all deletions find adds up to what is missing at the end
(`sum_found`), and only one task sends anything, so the stream answers its attempts in their order.
-/

namespace WalletTopUp.SideEffect

/-! ## What is dropped -/

def Drop.covers : Drop → String → Bool
  | .pattern prefixed => CacheStore.matchesPattern prefixed
  | .key name => (· = name)

/-- What is to be dropped after a top-up of a user. -/
def drops (username : String) : List Drop := sharedDrops ++ userDrops username

/-- A top-up of the user makes entries with the key stale. -/
def Stale (username key : String) : Prop :=
  "trx_list:".toList <+: key.toList ∨ "trx:".toList <+: key.toList ∨ key = CacheKey.transactionCount ∨
    key = CacheKey.account username ∨ key = CacheKey.balance username

theorem exists_covers_iff {username key : String} :
    (∃ d ∈ drops username, d.covers key = true) ↔ Stale username key := by
  have hstar : ∀ stem : String, CacheStore.matchesPattern (stem ++ "*") key = true ↔ stem.toList <+: key.toList := by
    intro stem
    rw [CacheStore.matchesPattern_star, List.isPrefixOf_iff_prefix]
  have hlist : (Drop.pattern CacheKey.transactionListPattern).covers key = true ↔ _ := hstar "trx_list:"
  have htransaction : (Drop.pattern CacheKey.transactionPattern).covers key = true ↔ _ := hstar "trx:"
  have hkey : ∀ name, (Drop.key name).covers key = true ↔ key = name := fun name => decide_eq_true_iff
  simp only [drops, sharedDrops, userDrops, List.cons_append, List.nil_append, List.exists_mem_cons_iff,
    List.not_mem_nil, false_and, exists_false, or_false, hlist, htransaction, hkey, Stale]

theorem not_stale_of_ne {username other : String} (h : other ≠ username) :
    ¬ Stale username (CacheKey.account other) ∧ ¬ Stale username (CacheKey.balance other) := by
  constructor
  · rintro (hlist | htransaction | hcount | haccount | hbalance)
    · simp [CacheKey.account] at hlist
    · simp [CacheKey.account] at htransaction
    · simpa [CacheKey.account, CacheKey.transactionCount] using congrArg String.toList hcount
    · exact h (CacheKey.account_inj.mp haccount)
    · exact CacheKey.account_ne_balance hbalance
  · rintro (hlist | htransaction | hcount | haccount | hbalance)
    · simp [CacheKey.balance] at hlist
    · simp [CacheKey.balance] at htransaction
    · simpa [CacheKey.balance, CacheKey.transactionCount] using congrArg String.toList hcount
    · exact CacheKey.account_ne_balance haccount.symm
    · exact h (CacheKey.balance_inj.mp hbalance)

/-! ## The cache and the stream -/

/-- What the tasks work on: the entries of the cache, and how often an event has been sent. -/
structure Surroundings where
  cache : CacheStore
  sends : Nat

/-- From one state to the next the question of an entry may be answered as the entry says. The deletions in `fails` fail
without effect, and `transport` says what becomes of each attempt to send. -/
def Serves (fails : Drop → Bool) (transport : Nat → Except String Delivery) (s : Surroundings)
    (entry : SideEffect.Entry) (s' : Surroundings) : Prop :=
  match entry with
  | ⟨.deleteKey name, answer⟩ =>
    if fails (.key name) then answer.isOk = false ∧ s' = s
    else answer = .ok (0 < s.cache.count (· = name)) ∧ s' = { s with cache := s.cache.drop (· = name) }
  | ⟨.deletePattern pattern, answer⟩ =>
    if fails (.pattern pattern) then answer.isOk = false ∧ s' = s
    else answer = .ok (s.cache.count (CacheStore.matchesPattern pattern)) ∧
      s' = { s with cache := s.cache.drop (CacheStore.matchesPattern pattern) }
  | ⟨.send _, answer⟩ => answer = transport s.sends ∧ s' = { s with sends := s.sends + 1 }
  | _ => s' = s

def deletion? : SideEffect.Entry → Option (Drop × Except String Nat)
  | ⟨.deleteKey name, answer⟩ => some (.key name, answer.map Bool.toNat)
  | ⟨.deletePattern pattern, answer⟩ => some (.pattern pattern, answer)
  | _ => none

def sending? : SideEffect.Entry → Option (Except String Delivery)
  | ⟨.send _, answer⟩ => some answer
  | _ => none

/-- What became of the attempts to send, in their order. -/
def sendings (history : SideEffect.History) : List (Except String Delivery) := history.filterMap sending?

def found (entry : SideEffect.Entry) : Nat :=
  match deletion? entry with
  | some (_, .ok n) => n
  | _ => 0

def clears (key : String) (entry : SideEffect.Entry) : Bool :=
  match deletion? entry with
  | some (d, .ok _) => d.covers key
  | _ => false

section
variable {fails : Drop → Bool} {transport : Nat → Except String Delivery} {s s' : Surroundings}
  {entry : SideEffect.Entry} {history : SideEffect.History}

theorem exists_serves (fails : Drop → Bool) (transport : Nat → Except String Delivery) (s : Surroundings)
    (q : Question) : ∃ answer s', Serves fails transport s ⟨q, answer⟩ s' := by
  cases q with
  | deleteKey name =>
    by_cases hfails : fails (.key name)
    · exact ⟨.error "", s, by simp [Serves, hfails, Except.isOk, Except.toBool]⟩
    · exact ⟨_, _, by simp only [Serves, if_neg hfails]; exact ⟨rfl, rfl⟩⟩
  | deletePattern pattern =>
    by_cases hfails : fails (.pattern pattern)
    · exact ⟨.error "", s, by simp [Serves, hfails, Except.isOk, Except.toBool]⟩
    · exact ⟨_, _, by simp only [Serves, if_neg hfails]; exact ⟨rfl, rfl⟩⟩
  | send event => exact ⟨_, _, rfl, rfl⟩
  | draw => exact ⟨0, s, rfl⟩
  | _ => exact ⟨(), s, rfl⟩

theorem Serves.deleted (h : Serves fails transport s entry s') {d : Drop} {n : Except String Nat}
    (hentry : deletion? entry = some (d, n)) :
    n.isOk = !fails d ∧ s'.cache = s.cache.drop (fun key => d.covers key && !fails d) ∧ s'.sends = s.sends := by
  obtain ⟨question, answer⟩ := entry
  cases question with
  | deleteKey name =>
    cases hentry
    by_cases hfails : fails (.key name)
    · simp only [Serves, if_pos hfails] at h
      obtain ⟨hanswer, rfl⟩ := h
      rcases answer with reason | answer
      · simp [hfails, Except.map, Except.isOk, Except.toBool]
      · cases hanswer
    · simp only [Serves, if_neg hfails] at h
      obtain ⟨rfl, rfl⟩ := h
      simp [hfails, Except.map, Except.isOk, Except.toBool, Drop.covers]
  | deletePattern pattern =>
    cases hentry
    by_cases hfails : fails (.pattern pattern)
    · simp only [Serves, if_pos hfails] at h
      obtain ⟨hanswer, rfl⟩ := h
      simp [hfails, hanswer]
    · simp only [Serves, if_neg hfails] at h
      obtain ⟨rfl, rfl⟩ := h
      simp [hfails, Except.isOk, Except.toBool, Drop.covers]
  | _ => cases hentry

theorem Serves.undeleted (h : Serves fails transport s entry s') (hentry : deletion? entry = none) :
    s'.cache = s.cache ∧ ∃ k, s'.sends = s.sends + k ∧ sendings [entry] = (List.range' s.sends k).map transport := by
  obtain ⟨question, answer⟩ := entry
  cases question with
  | deleteKey name => cases hentry
  | deletePattern pattern => cases hentry
  | send event =>
    obtain ⟨rfl, rfl⟩ := h
    exact ⟨rfl, 1, rfl, rfl⟩
  | _ =>
    obtain rfl : s' = s := h
    exact ⟨rfl, 0, rfl, rfl⟩

theorem Serves.found_add_length (h : Serves fails transport s entry s') (hkeys : s.cache.Keyed) :
    found entry + s'.cache.length = s.cache.length := by
  obtain ⟨question, answer⟩ := entry
  cases question with
  | deleteKey name =>
    by_cases hfails : fails (.key name)
    · simp only [Serves, if_pos hfails] at h
      obtain ⟨hanswer, rfl⟩ := h
      rcases answer with reason | answer
      · exact Nat.zero_add _
      · cases hanswer
    · simp only [Serves, if_neg hfails] at h
      obtain ⟨rfl, rfl⟩ := h
      refine Eq.trans ?_ (s.cache.count_add_length_drop (· = name))
      exact congrArg (· + _) (hkeys.toNat_found name)
  | deletePattern pattern =>
    by_cases hfails : fails (.pattern pattern)
    · simp only [Serves, if_pos hfails] at h
      obtain ⟨hanswer, rfl⟩ := h
      rcases answer with reason | answer
      · exact Nat.zero_add _
      · cases hanswer
    · simp only [Serves, if_neg hfails] at h
      obtain ⟨rfl, rfl⟩ := h
      exact s.cache.count_add_length_drop _
  | send event =>
    obtain ⟨-, rfl⟩ := h
    exact Nat.zero_add _
  | _ =>
    obtain rfl : s' = s := h
    exact Nat.zero_add _

theorem Serves.keyed (h : Serves fails transport s entry s') (hkeys : s.cache.Keyed) : s'.cache.Keyed := by
  rcases hentry : deletion? entry with _ | ⟨d, n⟩
  · rw [(h.undeleted hentry).1]
    exact hkeys
  · rw [(h.deleted hentry).2.1]
    exact hkeys.drop _

theorem sum_found (h : Served (Serves fails transport) s history s') (hkeys : s.cache.Keyed) :
    (history.map found).sum + s'.cache.length = s.cache.length := by
  induction h with
  | nil s => exact Nat.zero_add _
  | cons hserves hrest ih =>
    rw [List.map_cons, List.sum_cons, Nat.add_assoc, ih (hserves.keyed hkeys), hserves.found_add_length hkeys]

/-- What a history leaves behind. -/
structure Traced (fails : Drop → Bool) (transport : Nat → Except String Delivery) (s : Surroundings)
    (history : SideEffect.History) (s' : Surroundings) : Prop where
  left : s'.cache = s.cache.drop fun key => history.any (clears key)
  failed : ∀ entry ∈ history, ∀ d n, deletion? entry = some (d, n) → n.isOk = !fails d
  sent : ∃ k, s'.sends = s.sends + k ∧ sendings history = (List.range' s.sends k).map transport

theorem sendings_cons : sendings (entry :: history) = sendings [entry] ++ sendings history :=
  List.filterMap_append (l := [entry])

theorem Traced.cons {t : Surroundings} (h : Serves fails transport s entry t)
    (hrest : Traced fails transport t history s') : Traced fails transport s (entry :: history) s' := by
  obtain ⟨hleft, hfailed, k, hk, hsent⟩ := hrest
  rcases hentry : deletion? entry with _ | ⟨d, n⟩
  · obtain ⟨hcache, j, hj, hsending⟩ := h.undeleted hentry
    have hnone : ∀ key, clears key entry = false := fun key => by simp [clears, hentry]
    refine ⟨?_, ?_, j + k, by omega, ?_⟩
    · simp only [List.any_cons, hnone, Bool.false_or, hleft, hcache]
    · exact List.forall_mem_cons.mpr ⟨fun d n hsome => by simp [hentry] at hsome, hfailed⟩
    · rw [sendings_cons, hsending, hsent, hj, ← List.map_append, List.range'_append_1]
  · obtain ⟨hok, hcache, hsends⟩ := h.deleted hentry
    have hclears : ∀ key, clears key entry = (d.covers key && !fails d) := by
      intro key
      rw [← hok]
      rcases n with reason | n <;> simp [clears, hentry, Except.isOk, Except.toBool]
    have hsending : sendings [entry] = [] := by
      obtain ⟨question, answer⟩ := entry
      cases question <;> first | rfl | cases hentry
    refine ⟨?_, ?_, k, by rw [hk, hsends], ?_⟩
    · simp only [hleft, hcache, CacheStore.drop_drop, List.any_cons, hclears]
    · refine List.forall_mem_cons.mpr ⟨?_, hfailed⟩
      intro d' n' hsome
      obtain ⟨rfl, rfl⟩ : d = d' ∧ n = n' := by simpa [hentry] using hsome
      exact hok
    · rw [sendings_cons, hsending, hsent, hsends, List.nil_append]

theorem traced_of_served (h : Served (Serves fails transport) s history s') : Traced fails transport s history s' := by
  induction h with
  | nil s => exact ⟨by simp, by simp, 0, rfl, rfl⟩
  | cons hserves hrest ih => exact .cons hserves ih

end

/-! ## One task -/

/-- How a deletion counts in the report. -/
def outcomeOf : Except String Nat → Outcome
  | .ok n => .removed n
  | .error _ => .failed

/-- The entries of a task, with its outcome. -/
inductive Ran (p : Publisher) : Task → SideEffect.History → Outcome → Prop
  | drop {d : Drop} {entry : SideEffect.Entry} {n : Except String Nat} (h : deletion? entry = some (d, n)) :
      Ran p (.drop d) [entry] (outcomeOf n)
  | announce {history : SideEffect.History} {failures : List String} {r : Except String Delivery}
      (hsent : sendings history = failures.map .error ++ [r]) (hle : failures.length ≤ p.retry.maxRetries)
      (hexhausted : ∀ reason, r = .error reason → failures.length = p.retry.maxRetries)
      (hentries : history.length ≤ 3 * p.retry.maxRetries + 2) (hnone : ∀ entry ∈ history, deletion? entry = none) :
      Ran p .announce history (.announced r.isOk)

section
variable {p : Publisher} {t : Transaction} {history : SideEffect.History}

theorem exists_deletion_of_yields_runDrop {d : Drop} {r : Outcome} (h : (runDrop d).Yields history r) :
    ∃ entry n, history = [entry] ∧ deletion? entry = some (d, n) ∧ r = outcomeOf n := by
  rcases d with prefixed | name <;>
  · obtain ⟨reason | removed, rest, rfl, hrest⟩ := Program.yields_perform_bind_iff.mp h
    · obtain ⟨rfl, rfl⟩ := Program.yields_finish_iff.mp hrest
      exact ⟨_, .error reason, rfl, rfl, rfl⟩
    · obtain ⟨rfl, rfl⟩ := Program.yields_finish_iff.mp hrest
      exact ⟨_, _, rfl, rfl, rfl⟩

theorem sendings_of_interpreted {asked : (Retry.interface String Delivery).History}
    (h : Program.Interpreted (sendingStep p t) asked history) :
    sendings history = Retry.answers asked ∧ history.length = asked.length ∧
      ∀ entry ∈ history, deletion? entry = none := by
  induction h with
  | nil => exact ⟨rfl, rfl, by simp⟩
  | @cons q answer asked first rest hfirst hrest ih =>
    obtain ⟨hsendings, hlength, hnone⟩ := ih
    cases q with
    | call =>
      obtain rfl := Program.yields_perform_iff.mp hfirst
      refine ⟨?_, congrArg (· + 1) hlength, List.forall_mem_cons.mpr ⟨rfl, hnone⟩⟩
      change answer :: sendings rest = answer :: Retry.answers asked
      rw [hsendings]
    | _ =>
      obtain rfl := Program.yields_perform_iff.mp hfirst
      exact ⟨hsendings, congrArg (· + 1) hlength, List.forall_mem_cons.mpr ⟨rfl, hnone⟩⟩

theorem ran_of_yields {task : Task} {r : Outcome} (h : (runTask p t task).Yields history r) : Ran p task history r := by
  rcases task with d | _
  · obtain ⟨entry, n, rfl, hentry, rfl⟩ := exists_deletion_of_yields_runDrop h
    exact .drop hentry
  · obtain ⟨published, _, r, rfl, hpublished, hend⟩ := Program.yields_bind_iff.mp h
    obtain ⟨rfl, rfl⟩ := Program.yields_finish_iff.mp hend
    obtain ⟨first, rest, result, rfl, hfirst, hcounted⟩ := Program.yields_bind_iff.mp hpublished
    obtain ⟨⟨⟩, _, rfl, hend⟩ := Program.yields_perform_bind_iff.mp hcounted
    obtain ⟨rfl, rfl⟩ := Program.yields_finish_iff.mp hend
    obtain ⟨asked, hasked, hinterpreted⟩ := Program.interpreted_of_yields hfirst
    obtain ⟨hsendings, hlength, hnone⟩ := sendings_of_interpreted hinterpreted
    obtain ⟨failures, hanswers, -, hle, hexhausted, hentries⟩ := Retry.answered_of_yields hasked
    rw [List.append_nil]
    refine .announce ?_ hle (fun reason hreason => hexhausted reason hreason rfl) ?_ ?_
    · rw [sendings, List.filterMap_append, ← sendings, hsendings, hanswers]
      exact List.append_nil _
    · simp only [List.length_append, List.length_singleton]
      omega
    · exact List.forall_mem_append.mpr ⟨hnone, by simp [deletion?]⟩

end

/-! ## The report -/

def Outcome.keys : Outcome → Nat
  | .removed n => n
  | _ => 0

theorem Report.ofOutcomes_eq (outcomes : List Outcome) :
    Report.ofOutcomes outcomes = ⟨(outcomes.map Outcome.keys).sum, outcomes.countP (· = .failed),
      outcomes.any (· = .announced true)⟩ := by
  have hfold : ∀ report : Report, outcomes.foldl Report.add report =
      ⟨report.keysRemoved + (outcomes.map Outcome.keys).sum, report.failedTasks + outcomes.countP (· = .failed),
        report.eventPublished || outcomes.any (· = .announced true)⟩ := by
    induction outcomes with
    | nil => simp
    | cons outcome outcomes ih =>
      intro report
      rw [List.foldl_cons, ih]
      rcases outcome with n | _ | delivered
      · simp [Report.add, Outcome.keys, Nat.add_assoc]
      · simp [Report.add, Outcome.keys, Nat.add_assoc, Nat.add_comm 1]
      · cases delivered <;> simp [Report.add, Outcome.keys]
  rw [Report.ofOutcomes, hfold]
  simp [Report.empty]

theorem map_ofFn_get {α β γ : Type} {l : List α} {r : Fin l.length → β} {f : β → γ} {g : α → γ}
    (h : ∀ i, f (r i) = g (l.get i)) : (List.ofFn r).map f = l.map g := by
  rw [List.map_ofFn, show f ∘ r = g ∘ l.get from funext h, ← List.map_ofFn, List.ofFn_get]

/-! ### What a task contributes -/

/-- The task drops entries with the key and does not fail. -/
def Task.clears (fails : Drop → Bool) (key : String) : Task → Bool
  | .drop d => d.covers key && !fails d
  | .announce => false

def Task.failing (fails : Drop → Bool) : Task → Bool
  | .drop d => fails d
  | .announce => false

/-- How many entries a task has at most. -/
def Task.entries (p : Publisher) : Task → Nat
  | .drop _ => 1
  | .announce => 3 * p.retry.maxRetries + 2

namespace Ran
variable {p : Publisher} {task : Task} {history : SideEffect.History} {r : Outcome} {fails : Drop → Bool}

theorem keys_eq (h : Ran p task history r) : r.keys = (history.map found).sum := by
  rcases h with @⟨d, entry, n, hentry⟩ | ⟨-, -, -, -, hnone⟩
  · rcases n with reason | n <;> simp [outcomeOf, Outcome.keys, found, hentry]
  · have hzero : ∀ entry ∈ history, found entry = 0 := fun entry hmem => by simp [found, hnone entry hmem]
    rw [List.map_congr_left hzero]
    simp [Outcome.keys]

theorem length_le (h : Ran p task history r) : history.length ≤ task.entries p := by
  rcases h with _ | ⟨-, -, -, hentries, -⟩
  · exact Nat.le_refl _
  · exact hentries

theorem sendings_of_ne (h : Ran p task history r) (hne : task ≠ .announce) : sendings history = [] := by
  rcases h with @⟨d, entry, n, hentry⟩ | _
  · obtain ⟨question, answer⟩ := entry
    cases question <;> first | rfl | cases hentry
  · exact absurd rfl hne

theorem eq_announce {delivered : Bool} (h : Ran p task history (.announced delivered)) : task = .announce := by
  generalize hr : Outcome.announced delivered = r at h
  rcases h with @⟨d, entry, n, -⟩ | _
  · cases n <;> cases hr
  · rfl

theorem announces (h : Ran p .announce history r) :
    ∃ (failures : List String) (result : Except String Delivery),
      sendings history = failures.map .error ++ [result] ∧ failures.length ≤ p.retry.maxRetries ∧
      (∀ reason, result = .error reason → failures.length = p.retry.maxRetries) ∧ r = .announced result.isOk := by
  cases h with
  | announce hsent hle hexhausted => exact ⟨_, _, hsent, hle, hexhausted, rfl⟩

variable (hfailed : ∀ entry ∈ history, ∀ d n, deletion? entry = some (d, n) → n.isOk = !fails d)
include hfailed

theorem any_clears (h : Ran p task history r) (key : String) :
    history.any (SideEffect.clears key) = task.clears fails key := by
  rcases h with @⟨d, entry, n, hentry⟩ | ⟨-, -, -, -, hnone⟩
  · have hok := hfailed entry (List.mem_singleton_self _) d n hentry
    rcases n with reason | n
    · have hfails : fails d = true := by simpa [Except.isOk, Except.toBool] using hok
      simp [SideEffect.clears, hentry, Task.clears, hfails]
    · have hfails : fails d = false := by simpa [Except.isOk, Except.toBool] using hok
      simp [SideEffect.clears, hentry, Task.clears, hfails]
  · rw [List.any_eq_false.mpr fun entry hmem => by simp [SideEffect.clears, hnone entry hmem]]
    rfl

theorem failed_eq (h : Ran p task history r) : decide (r = .failed) = task.failing fails := by
  rcases h with @⟨d, entry, n, hentry⟩ | _
  · have hok := hfailed entry (List.mem_singleton_self _) d n hentry
    rcases n with reason | n
    · have hfails : fails d = true := by simpa [Except.isOk, Except.toBool] using hok
      simp [outcomeOf, Task.failing, hfails]
    · have hfails : fails d = false := by simpa [Except.isOk, Except.toBool] using hok
      simp [outcomeOf, Task.failing, hfails]
  · simp [Task.failing]

end Ran

theorem announced_iff {p : Publisher} {transport : Nat → Except String Delivery} {failures : List String}
    {r : Except String Delivery} {k : Nat} (hsent : (List.range' 0 k).map transport = failures.map .error ++ [r])
    (hle : failures.length ≤ p.retry.maxRetries)
    (hexhausted : ∀ reason, r = .error reason → failures.length = p.retry.maxRetries) :
    r.isOk = true ↔ ∃ n ≤ p.retry.maxRetries, (transport n).isOk = true := by
  have hk : k = failures.length + 1 := by simpa using congrArg List.length hsent
  have hattempt : ∀ n ≤ failures.length, (failures.map .error ++ [r])[n]? = some (transport n) := by
    intro n hn
    rw [← hsent, hk, List.getElem?_map, List.getElem?_range' (by omega)]
    simp
  have hlast : transport failures.length = r := by simpa using (hattempt failures.length (Nat.le_refl _)).symm
  constructor
  · intro hok
    exact ⟨failures.length, hle, hlast ▸ hok⟩
  · rintro ⟨n, hn, hok⟩
    rcases r with reason | delivery
    · have hlength := hexhausted reason rfl
      rcases Nat.lt_or_eq_of_le (hlength ▸ hn) with hlt | rfl
      · have hfailure := hattempt n (Nat.le_of_lt hlt)
        rw [List.getElem?_append_left (by simpa using hlt), List.getElem?_map, List.getElem?_eq_getElem hlt] at hfailure
        cases Option.some.inj hfailure ▸ hok
      · rw [hlast] at hok
        cases hok
    · rfl

/-! ## All tasks -/

section
variable {p : Publisher} {username : String} {t : Transaction} {fails : Drop → Bool}
  {transport : Nat → Except String Delivery}

theorem drop_mem_tasks {d : Drop} : Task.drop d ∈ tasks username ↔ d ∈ drops username := by
  simp [tasks, drops]

theorem val_of_announce {i : Fin (tasks username).length} (h : (tasks username).get i = .announce) :
    i.val = (drops username).length := by
  obtain ⟨i, hi⟩ := i
  have hlength : (tasks username).length = (drops username).length + 1 := by simp [tasks, drops, Nat.add_assoc]
  by_cases hlt : i < (drops username).length
  · have hdrop : (tasks username).get ⟨i, hi⟩ = .drop ((drops username).get ⟨i, hlt⟩) := by
      simp only [tasks, List.get_eq_getElem]
      rw [List.getElem_append_left (by simpa [drops] using hlt), List.getElem_map]
      rfl
    rw [hdrop] at h
    cases h
  · change i = (drops username).length
    omega

/-- The tasks after a top-up of a user, one run for each. -/
abbrev runs (p : Publisher) (username : String) (t : Transaction) :
    Fin (tasks username).length → Program SideEffect Outcome :=
  fun i => runTask p t ((tasks username).get i)

/-- What the tasks come to. -/
structure Concluded (p : Publisher) (username : String) (fails : Drop → Bool)
    (transport : Nat → Except String Delivery) (cache cache' : CacheStore) (report : Report) : Prop where
  left : cache' = cache.drop fun key => (drops username).any fun d => d.covers key && !fails d
  removed : report.keysRemoved + cache'.length = cache.length
  failed : report.failedTasks = (drops username).countP fails
  published : report.eventPublished = true ↔ ∃ n ≤ p.retry.maxRetries, (transport n).isOk = true

variable {cache : CacheStore} {log : List (Fin (tasks username).length × SideEffect.Entry)}
  {r : Fin (tasks username).length → Outcome} {s' : Surroundings}

theorem any_tasks (key : String) :
    (tasks username).any (Task.clears fails key) = (drops username).any fun d => d.covers key && !fails d := by
  rw [tasks, List.any_append, List.any_map]
  exact Bool.or_false _

theorem countP_tasks : (tasks username).countP (Task.failing fails) = (drops username).countP fails := by
  rw [tasks, List.countP_append, List.countP_map]
  rfl

theorem lookup?_drop_of_not_stale {key : String} (hkey : ¬ Stale username key) :
    (cache.drop fun key => (drops username).any fun d => d.covers key && !fails d).lookup? key = cache.lookup? key := by
  have huncovered : ∀ d ∈ drops username, d.covers key = false := fun d hd =>
    eq_false_of_ne_true fun hcovers => hkey (exists_covers_iff.mp ⟨d, hd, hcovers⟩)
  rw [CacheStore.lookup?_drop, if_neg]
  simp only [List.any_eq_true, Bool.and_eq_true, not_exists, not_and]
  intro d hd hcovers
  rw [huncovered d hd] at hcovers
  cases hcovers

/-- What the deletions leave, in whatever order they are made. -/
theorem cache_of_interleaved (h : Interleaved (Serves fails transport) (runs p username t) ⟨cache, 0⟩ log r s') :
    s'.cache = cache.drop fun key => (drops username).any fun d => d.covers key && !fails d := by
  have htraced : Traced fails transport ⟨cache, 0⟩ (log.map (·.2)) s' := traced_of_served h.served
  rw [htraced.left]
  refine congrArg _ (funext fun key => ?_)
  have hclears : ∀ i, (entriesOf i log).any (clears key) = ((tasks username).get i).clears fails key := fun i =>
    (ran_of_yields (h.yields i)).any_clears
      (fun entry hmem => htraced.failed entry (List.mem_map_of_mem (mem_entriesOf.mp hmem))) key
  rw [← any_tasks, Bool.eq_iff_iff, any_entriesOf, List.any_eq_true]
  simp only [hclears, List.mem_iff_get, exists_exists_eq_and]

/-- Only one of the tasks sends anything, so the attempts are its attempts. -/
theorem published_iff (h : Interleaved (Serves fails transport) (runs p username t) ⟨cache, 0⟩ log r s') :
    (List.ofFn r).any (· = .announced true) = true ↔ ∃ n ≤ p.retry.maxRetries, (transport n).isOk = true := by
  have htraced : Traced fails transport ⟨cache, 0⟩ (log.map (·.2)) s' := traced_of_served h.served
  have hran : ∀ i, Ran p ((tasks username).get i) (entriesOf i log) (r i) := fun i => ran_of_yields (h.yields i)
  obtain ⟨i, hi⟩ : ∃ i, (tasks username).get i = .announce := List.mem_iff_get.mp (by simp [tasks])
  have hunique : ∀ j, (tasks username).get j = .announce → j = i := fun j hj =>
    Fin.ext ((val_of_announce hj).trans (val_of_announce hi).symm)
  -- only the run that announces sends anything
  have hsendings : sendings (log.map (·.2)) = sendings (entriesOf i log) := by
    refine filterMap_entriesOf fun j entry hmem hj => ?_
    have hnone : sendings (entriesOf j log) = [] := (hran j).sendings_of_ne (mt (hunique j) hj)
    exact List.filterMap_eq_nil_iff.mp hnone entry (mem_entriesOf.mpr hmem)
  obtain ⟨k, -, hsent⟩ := htraced.sent
  have hannounced : (List.ofFn r).any (· = .announced true) = true ↔ r i = .announced true := by
    simp only [List.any_eq_true, List.mem_ofFn, decide_eq_true_eq]
    constructor
    · rintro ⟨_, ⟨j, rfl⟩, hj⟩
      have hrun := hran j
      rw [hj] at hrun
      rwa [← hunique j hrun.eq_announce]
    · intro hi
      exact ⟨_, ⟨i, rfl⟩, hi⟩
  have hrun := hran i
  rw [hi] at hrun
  obtain ⟨failures, result, hparts, hle, hexhausted, houtcome⟩ := hrun.announces
  rw [hannounced, houtcome, ← announced_iff (hsent.symm.trans (hsendings.trans hparts)) hle hexhausted]
  simp

theorem conclude (hkeys : cache.Keyed)
    (h : Interleaved (Serves fails transport) (runs p username t) ⟨cache, 0⟩ log r s') :
    Concluded p username fails transport cache s'.cache (Report.ofOutcomes (List.ofFn r)) := by
  have htraced : Traced fails transport ⟨cache, 0⟩ (log.map (·.2)) s' := traced_of_served h.served
  have hran : ∀ i, Ran p ((tasks username).get i) (entriesOf i log) (r i) := fun i => ran_of_yields (h.yields i)
  have hfailed : ∀ i, ∀ entry ∈ entriesOf i log, ∀ d n, deletion? entry = some (d, n) → n.isOk = !fails d :=
    fun i entry hmem => htraced.failed entry (List.mem_map_of_mem (mem_entriesOf.mp hmem))
  rw [Report.ofOutcomes_eq]
  constructor
  case left => exact cache_of_interleaved h
  case removed =>
    have hsum : ∑ i, (r i).keys = ∑ i, ((entriesOf i log).map found).sum :=
      Finset.sum_congr rfl fun i _ => (hran i).keys_eq
    rw [← sum_found h.served hkeys, sum_entriesOf, ← hsum, List.map_ofFn, List.sum_ofFn]
    rfl
  case failed =>
    have hmap : (List.ofFn r).map (fun outcome => decide (outcome = .failed)) =
        (tasks username).map (Task.failing fails) :=
      map_ofFn_get fun i => (hran i).failed_eq (hfailed i)
    have hcount := congrArg (List.countP id) hmap
    rw [List.countP_map, List.countP_map] at hcount
    exact hcount.trans countP_tasks
  case published => exact published_iff h

variable {cache' cache'' : CacheStore} {report report' : Report}

theorem Concluded.unique (h : Concluded p username fails transport cache cache' report)
    (h' : Concluded p username fails transport cache cache'' report') : cache'' = cache' ∧ report' = report := by
  have hcache : cache'' = cache' := h'.left.trans h.left.symm
  refine ⟨hcache, ?_⟩
  obtain ⟨keysRemoved, failedTasks, eventPublished⟩ := report
  obtain ⟨keysRemoved', failedTasks', eventPublished'⟩ := report'
  have hremoved : keysRemoved' = keysRemoved := by
    have hsum : keysRemoved' + cache''.length = keysRemoved + cache'.length := h'.removed.trans h.removed.symm
    rw [hcache] at hsum
    exact Nat.add_right_cancel hsum
  have hfailed : failedTasks' = failedTasks := h'.failed.trans h.failed.symm
  have hpublished : eventPublished' = eventPublished := Bool.eq_iff_iff.mpr (h'.published.trans h.published.symm)
  rw [hremoved, hfailed, hpublished]

theorem Concluded.kept (h : Concluded p username fails transport cache cache' report) {key : String}
    (hkey : ¬ Stale username key) : cache'.lookup? key = cache.lookup? key := by
  rw [h.left, lookup?_drop_of_not_stale hkey]

theorem length_le_of_underway {left : Fin (tasks username).length → Program SideEffect Outcome} {s : Surroundings}
    (h : Underway (Serves fails transport) (runs p username t) ⟨cache, 0⟩ log left s) :
    log.length ≤ 3 * p.retry.maxRetries + 7 := by
  have hrun : ∀ i, (entriesOf i log).length ≤ ((tasks username).get i).entries p := by
    intro i
    obtain ⟨rest, outcome, hyields⟩ := (h.reaches i).exists_yields
      fun _ q => (exists_serves (fun _ => true) transport s q).choose
    have hle : (entriesOf i log ++ rest).length ≤ ((tasks username).get i).entries p :=
      (ran_of_yields hyields).length_le
    rw [List.length_append] at hle
    exact Nat.le_of_add_right_le hle
  calc log.length = ∑ i, (entriesOf i log).length := sum_length_entriesOf log
    _ ≤ ∑ i, ((tasks username).get i).entries p := Finset.sum_le_sum fun i _ => hrun i
    _ = ((tasks username).map (Task.entries p)).sum := by rw [← List.sum_ofFn, ← map_ofFn_get fun _ => rfl]; rfl
    _ = 3 * p.retry.maxRetries + 7 := by
      simp [tasks, sharedDrops, userDrops, Task.entries]
      omega

/-- One task after the other is one of the orders. -/
theorem exists_interleaved_of_performs {report : Report}
    (h : Performs (Serves fails transport) (afterTopUp p username t) ⟨cache, 0⟩ report s') :
    ∃ log r, Interleaved (Serves fails transport) (runs p username t) ⟨cache, 0⟩ log r s' ∧
      report = Report.ofOutcomes (List.ofFn r) := by
  obtain ⟨history, hyields, hserved⟩ := h
  obtain ⟨first, rest, outcomes, rfl, hfirst, hcount⟩ := Program.yields_bind_iff.mp hyields
  obtain ⟨⟨⟩, _, rfl, hend⟩ := Program.yields_perform_bind_iff.mp hcount
  obtain ⟨rfl, rfl⟩ := Program.yields_finish_iff.mp hend
  obtain ⟨u, hu, hlast⟩ := served_append_iff.mp hserved
  obtain ⟨u', hcounted, hnil⟩ := served_cons_iff.mp hlast
  obtain rfl : u' = u := hcounted
  obtain rfl := served_nil_iff.mp hnil
  obtain ⟨log, r, hlog, rfl⟩ := interleaved_of_mapM hfirst hu
  exact ⟨log, r, hlog, rfl⟩

/-- What the tasks come to, whatever the order of their steps. -/
structure Determined (p : Publisher) (username : String) (t : Transaction) (fails : Drop → Bool)
    (transport : Nat → Except String Delivery) (cache cache' : CacheStore) (report : Report) : Prop where
  concluded : Concluded p username fails transport cache cache' report
  kept : ∀ key, ¬ Stale username key → cache'.lookup? key = cache.lookup? key
  others : ∀ other, other ≠ username →
    cache'.lookup? (CacheKey.account other) = cache.lookup? (CacheKey.account other) ∧
      cache'.lookup? (CacheKey.balance other) = cache.lookup? (CacheKey.balance other)
  interleaved : ∀ log r s', Interleaved (Serves fails transport) (runs p username t) ⟨cache, 0⟩ log r s' →
    s'.cache = cache' ∧ Report.ofOutcomes (List.ofFn r) = report
  /-- Wherever the tasks stand, they can be brought to their ends, and that takes only so many steps. -/
  completes : ∀ log left s, Underway (Serves fails transport) (runs p username t) ⟨cache, 0⟩ log left s →
    log.length ≤ 3 * p.retry.maxRetries + 7 ∧
      ∃ more r s', Interleaved (Serves fails transport) (runs p username t) ⟨cache, 0⟩ (log ++ more) r s'
  /-- One task after the other is one of the orders. -/
  performed : (∃ s', Performs (Serves fails transport) (afterTopUp p username t) ⟨cache, 0⟩ report s') ∧
    ∀ report' s', Performs (Serves fails transport) (afterTopUp p username t) ⟨cache, 0⟩ report' s' →
      s'.cache = cache' ∧ report' = report
  /-- The receipt stands before the tasks begin. -/
  answered : ∀ registry request history result, (TopUp.topUp registry username request).Yields history result →
    ⟨.dispatch username t, ()⟩ ∈ history → result = .ok t.receipt

/-- **The order of the tasks does not matter.** Which deletions fail and what becomes of the attempts to send decides
alone which entries are left and what is reported. -/
theorem afterTopUp_determined (p : Publisher) (username : String) (t : Transaction) (fails : Drop → Bool)
    (transport : Nat → Except String Delivery) (hkeys : cache.Keyed) :
    ∃ cache' report, Determined p username t fails transport cache cache' report := by
  have hanswers := exists_serves fails transport
  have hstart := Underway.start (Serves fails transport) (runs p username t) ⟨cache, 0⟩
  obtain ⟨log, r, s', hlog⟩ := hstart.exists_interleaved hanswers
  have hconcluded := conclude hkeys hlog
  have hall : ∀ log r' t', Interleaved (Serves fails transport) (runs p username t) ⟨cache, 0⟩ log r' t' →
      t'.cache = s'.cache ∧ Report.ofOutcomes (List.ofFn r') = Report.ofOutcomes (List.ofFn r) :=
    fun log r' t' h => hconcluded.unique (conclude hkeys h)
  have hperformed : ∀ report' s'', Performs (Serves fails transport) (afterTopUp p username t) ⟨cache, 0⟩ report' s'' →
      s''.cache = s'.cache ∧ report' = Report.ofOutcomes (List.ofFn r) := by
    intro report' s'' h
    obtain ⟨log', r', hlog', rfl⟩ := exists_interleaved_of_performs h
    exact hall log' r' s'' hlog'
  have hothers : ∀ other, other ≠ username →
      s'.cache.lookup? (CacheKey.account other) = cache.lookup? (CacheKey.account other) ∧
        s'.cache.lookup? (CacheKey.balance other) = cache.lookup? (CacheKey.balance other) := by
    intro other hother
    obtain ⟨haccount, hbalance⟩ := not_stale_of_ne hother
    exact ⟨hconcluded.kept haccount, hconcluded.kept hbalance⟩
  refine ⟨s'.cache, _, hconcluded, fun key => hconcluded.kept, hothers, hall, ?_, ⟨?_, hperformed⟩, ?_⟩
  · intro log left s h
    exact ⟨length_le_of_underway h, h.exists_interleaved hanswers⟩
  · obtain ⟨history, report', s'', hyields, hserved⟩ := (afterTopUp p username t).exists_served hanswers ⟨cache, 0⟩
    have hperforms : Performs (Serves fails transport) (afterTopUp p username t) ⟨cache, 0⟩ report' s'' :=
      ⟨history, hyields, hserved⟩
    exact ⟨s'', (hperformed _ _ hperforms).2 ▸ hperforms⟩
  · intro registry request history result hyields hmem
    exact (TopUp.receipt_of_dispatch hyields hmem).2

end

/-! ## A deletion that fails -/

namespace Sample

/-- Entries of two users, and one that only resembles the pattern of the transactions. -/
def cache : CacheStore :=
  [("account:amber", ⟨"1", some 15⟩), ("account:bo", ⟨"2", some 15⟩), ("balance:amber", ⟨"3", some 5⟩),
    ("trx:1", ⟨"4", none⟩), ("trxs", ⟨"5", none⟩)]

theorem keyed : cache.Keyed := by
  unfold CacheStore.Keyed
  decide

/-- The first attempt to send fails. -/
def transport : Nat → Except String Delivery
  | 0 => .error "down"
  | _ => .ok ⟨"transactions", none, "1-0"⟩

end Sample

theorem afterTopUp_determined_amber :
    ∃ cache' report, Determined (.standard "transactions") "amber" default (· = .key "balance:amber") Sample.transport
      Sample.cache cache' report :=
  afterTopUp_determined (.standard "transactions") "amber" default (· = .key "balance:amber") Sample.transport
    Sample.keyed

end WalletTopUp.SideEffect
