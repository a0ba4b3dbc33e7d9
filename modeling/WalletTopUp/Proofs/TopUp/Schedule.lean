import Mathlib.Data.List.Induction
import Mathlib.Logic.Function.Basic
import WalletTopUp.Proofs.TopUp.Effects

/-!
# Debits that overlap

Several runs read an account and write it, in the order of a log. A run writes what it has computed from its last
read, so its writing puts back everything that others wrote since: `kept` is the list of the runs whose debits
are still in the account. The runs that wrote at all are `writers`. The two are the same if and only if no run
writes between the read and the write of another run (`kept_eq_writers_iff`).
-/

namespace WalletTopUp.TopUp
open Service (isRead isWrite)

variable {ι : Type}

/-- The entries of several runs in the order in which they took place, each with its run. -/
abbrev Log (ι : Type) := List (ι × Service.Entry)

/-- The runs that have written, in the order in which they did. -/
def writers (log : Log ι) : List ι := (log.filter (isWrite ·.2)).map (·.1)

/-- A run does not read in this part of the log. -/
def Unread (i : ι) (log : Log ι) : Prop := ∀ x ∈ log, x.1 = i → ¬ isRead x.2

/-- Every write comes after a read of its run. -/
def ReadFirst (log : Log ι) : Prop :=
  ∀ before i write after, log = before ++ (i, write) :: after → isWrite write → ¬ Unread i before

/-- No run writes between the last read of another run and its write. -/
def Undisturbed (log : Log ι) : Prop :=
  ∀ before i read between write after, log = before ++ (i, read) :: (between ++ (i, write) :: after) →
    isRead read → isWrite write → Unread i between → ∀ x ∈ between, ¬ isWrite x.2

/-- Whose debits are in the account, and whose debits each run has seen there when it read the account last. -/
structure Memory (ι : Type) where
  kept : List ι
  seen : ι → List ι

section
variable [DecidableEq ι]

/-- A write puts the debits that its run has seen, and its own, in the place of all others. -/
def Memory.step (m : Memory ι) (x : ι × Service.Entry) : Memory ι :=
  if isWrite x.2 then { m with kept := m.seen x.1 ++ [x.1] }
  else if isRead x.2 then { m with seen := Function.update m.seen x.1 m.kept }
  else m

def memory (log : Log ι) : Memory ι := log.foldl Memory.step ⟨[], fun _ => []⟩

/-- The runs whose debits are in the account, in the order in which they were written. -/
def kept (log : Log ι) : List ι := (memory log).kept

/-- The runs whose debits a run has seen. -/
def seen (log : Log ι) (i : ι) : List ι := (memory log).seen i

end

/-! ## Reads and writes -/

theorem forall_prefix {α : Type} {P : List α → Prop} {l : List α} (nil : P [])
    (snoc : ∀ done x rest, l = done ++ x :: rest → (∀ before after, done = before ++ after → P before) →
      P (done ++ [x])) (done rest : List α) (h : l = done ++ rest) : P done := by
  induction hn : done.length using Nat.strong_induction_on generalizing done rest with
  | h n ih =>
    rcases List.eq_nil_or_concat done with rfl | ⟨done, x, rfl⟩
    · exact nil
    · rw [List.concat_eq_append] at h hn ⊢
      rw [List.append_assoc, List.singleton_append] at h
      rw [List.length_append, List.length_singleton] at hn
      refine snoc done x rest h fun before after hdone => ?_
      subst hdone
      rw [List.length_append] at hn
      exact ih before.length (by omega) before _ (by rw [h, List.append_assoc]) rfl

theorem isWrite_iff {entry : Service.Entry} :
    isWrite entry ↔ ∃ account written, entry = ⟨.writeBalance account, written⟩ := by
  constructor
  · intro h
    obtain ⟨question, answer⟩ := entry
    cases question <;> simp [isWrite] at h
    exact ⟨_, _, rfl⟩
  · rintro ⟨account, written, rfl⟩
    rfl

theorem not_isRead_of_isWrite {entry : Service.Entry} (h : isWrite entry) : ¬ isRead entry := by
  obtain ⟨account, written, rfl⟩ := isWrite_iff.mp h
  simp [isRead]

theorem writers_append (log log' : Log ι) : writers (log ++ log') = writers log ++ writers log' := by
  simp [writers]

theorem writers_eq_nil_iff {log : Log ι} : writers log = [] ↔ ∀ x ∈ log, ¬ isWrite x.2 := by
  simp [writers, List.filter_eq_nil_iff]

theorem writers_snoc_write (log : Log ι) (i : ι) {entry : Service.Entry} (h : isWrite entry) :
    writers (log ++ [(i, entry)]) = writers log ++ [i] := by
  rw [writers_append]
  simp [writers, h]

theorem writers_snoc_other (log : Log ι) (i : ι) {entry : Service.Entry} (h : ¬ isWrite entry) :
    writers (log ++ [(i, entry)]) = writers log := by
  have hlast : writers [(i, entry)] = [] := writers_eq_nil_iff.mpr (by simpa using h)
  rw [writers_append, hlast, List.append_nil]

theorem mem_writers {log : Log ι} {i : ι} : i ∈ writers log ↔ ∃ entry, (i, entry) ∈ log ∧ isWrite entry := by
  simp [writers]

theorem exists_last_read {log : Log ι} {i : ι} (h : ¬ Unread i log) :
    ∃ before read between, log = before ++ (i, read) :: between ∧ isRead read ∧ Unread i between := by
  induction log using List.reverseRecOn with
  | nil => exact absurd (fun x hx => by simp at hx) h
  | append_singleton log x ih =>
    obtain ⟨j, entry⟩ := x
    by_cases hlast : j = i ∧ isRead entry
    · obtain ⟨rfl, hread⟩ := hlast
      exact ⟨log, entry, [], rfl, hread, fun x hx => by simp at hx⟩
    · have hlast' : Unread i [(j, entry)] := by
        intro x hx hi hread
        obtain rfl := List.mem_singleton.mp hx
        exact hlast ⟨hi, hread⟩
      have hlog : ¬ Unread i log := by
        intro hlog
        refine h fun x hx => ?_
        rcases List.mem_append.mp hx with hx | hx
        · exact hlog x hx
        · exact hlast' x hx
      obtain ⟨before, read, between, rfl, hread, hbetween⟩ := ih hlog
      refine ⟨before, read, between ++ [(j, entry)], by simp, hread, fun x hx => ?_⟩
      rcases List.mem_append.mp hx with hx | hx
      · exact hbetween x hx
      · exact hlast' x hx

/-! ## One step -/

section
variable [DecidableEq ι] (log : Log ι) (i j : ι) {entry : Service.Entry}

theorem memory_snoc (x : ι × Service.Entry) : memory (log ++ [x]) = (memory log).step x := by
  simp [memory, List.foldl_append]

theorem kept_snoc_write (h : isWrite entry) : kept (log ++ [(i, entry)]) = seen log i ++ [i] := by
  rw [kept, memory_snoc, Memory.step, if_pos h]
  rfl

theorem kept_snoc_other (h : ¬ isWrite entry) : kept (log ++ [(i, entry)]) = kept log := by
  rw [kept, memory_snoc, Memory.step, if_neg h]
  split_ifs <;> rfl

theorem seen_snoc_read (h : isRead entry) : seen (log ++ [(i, entry)]) i = kept log := by
  have hwrite : ¬ isWrite entry := fun hwrite => not_isRead_of_isWrite hwrite h
  rw [seen, memory_snoc, Memory.step, if_neg hwrite, if_pos h]
  exact Function.update_self ..

theorem seen_snoc_other (h : i = j → ¬ isRead entry) : seen (log ++ [(i, entry)]) j = seen log j := by
  rw [seen, memory_snoc, Memory.step]
  split_ifs with hwrite hread
  · rfl
  · exact Function.update_of_ne (fun heq => h heq.symm hread) ..
  · rfl

theorem seen_of_last_read (before between : Log ι) (hread : isRead entry) (hbetween : Unread i between) :
    seen (before ++ (i, entry) :: between) i = kept before := by
  induction between using List.reverseRecOn with
  | nil => exact seen_snoc_read before i hread
  | append_singleton between x ih =>
    rw [← List.cons_append, ← List.append_assoc, seen_snoc_other _ x.1 i (hbetween x (by simp))]
    exact ih fun y hy => hbetween y (by simp [hy])

theorem snoc_cases (log : Log ι) (x : ι × Service.Entry) :
    (isWrite x.2 ∧ kept (log ++ [x]) = seen log x.1 ++ [x.1] ∧ writers (log ++ [x]) = writers log ++ [x.1] ∧
      ∀ j, seen (log ++ [x]) j = seen log j) ∨
    (¬ isWrite x.2 ∧ kept (log ++ [x]) = kept log ∧ writers (log ++ [x]) = writers log ∧
      ∀ j, seen (log ++ [x]) j = kept log ∨ seen (log ++ [x]) j = seen log j) := by
  obtain ⟨i, entry⟩ := x
  by_cases hwrite : isWrite entry
  · refine .inl ⟨hwrite, kept_snoc_write log i hwrite, writers_snoc_write log i hwrite, fun j => ?_⟩
    exact seen_snoc_other log i j fun _ => not_isRead_of_isWrite hwrite
  · refine .inr ⟨hwrite, kept_snoc_other log i hwrite, writers_snoc_other log i hwrite, fun j => ?_⟩
    by_cases hread : i = j ∧ isRead entry
    · obtain ⟨rfl, hread⟩ := hread
      exact .inl (seen_snoc_read log i hread)
    · exact .inr (seen_snoc_other log i j fun hij hread' => hread ⟨hij, hread'⟩)

/-- At a write: whose debits the account then has. -/
theorem kept_of_based (before between : Log ι) {read : Service.Entry} (hread : isRead read)
    (hbetween : Unread i between) (hwrite : isWrite entry) :
    kept (before ++ (i, read) :: between ++ [(i, entry)]) = kept before ++ [i] := by
  rw [kept_snoc_write _ i hwrite, seen_of_last_read i before between hread hbetween]

end

/-! ## The account keeps every debit -/

section
variable [DecidableEq ι] {log : Log ι}

theorem kept_seen_sublist (log : Log ι) :
    List.Sublist (kept log) (writers log) ∧ ∀ i, List.Sublist (seen log i) (writers log) := by
  induction log using List.reverseRecOn with
  | nil => exact ⟨List.Sublist.refl _, fun _ => List.Sublist.refl _⟩
  | append_singleton log x ih =>
    obtain ⟨hkept, hseen⟩ := ih
    rcases snoc_cases log x with ⟨-, hk, hw, hs⟩ | ⟨-, hk, hw, hs⟩
    · rw [hk, hw]
      refine ⟨(hseen x.1).append_right [x.1], fun j => ?_⟩
      rw [hs j]
      exact (hseen j).trans (List.sublist_append_left _ _)
    · rw [hk, hw]
      refine ⟨hkept, fun j => ?_⟩
      rcases hs j with hs | hs
      · rwa [hs]
      · rw [hs]
        exact hseen j

theorem getLast?_kept (log : Log ι) : (kept log).getLast? = (writers log).getLast? := by
  induction log using List.reverseRecOn with
  | nil => rfl
  | append_singleton log x ih =>
    rcases snoc_cases log x with ⟨-, hk, hw, -⟩ | ⟨-, hk, hw, -⟩
    · rw [hk, hw, List.getLast?_concat, List.getLast?_concat]
    · rw [hk, hw, ih]

/-- More runs have written than there are debits in the account, and no run has seen as many. -/
def Behind (log : Log ι) : Prop :=
  (kept log).length < (writers log).length ∧ ∀ i, (seen log i).length < (writers log).length

theorem Behind.append (h : Behind log) (log' : Log ι) : Behind (log ++ log') := by
  induction log' using List.reverseRecOn with
  | nil => rwa [List.append_nil]
  | append_singleton log' x ih =>
    obtain ⟨hkept, hseen⟩ := ih
    rw [← List.append_assoc]
    rcases snoc_cases (log ++ log') x with ⟨-, hk, hw, hs⟩ | ⟨-, hk, hw, hs⟩
    · refine ⟨?_, fun j => ?_⟩
      · rw [hk, hw, List.length_append, List.length_append]
        exact Nat.add_lt_add_right (hseen x.1) _
      · rw [hs j, hw, List.length_append]
        exact Nat.lt_add_right _ (hseen j)
    · refine ⟨by rwa [hk, hw], fun j => ?_⟩
      rw [hw]
      rcases hs j with hs | hs
      · rwa [hs]
      · rw [hs]
        exact hseen j

/-- A write that puts another one back leaves the account behind. -/
theorem behind_of_disturbed (before between : Log ι) {i : ι} {read write : Service.Entry} (hread : isRead read)
    (hwrite : isWrite write) (hbetween : Unread i between) (hdisturbed : ∃ x ∈ between, isWrite x.2) :
    Behind (before ++ (i, read) :: between ++ [(i, write)]) := by
  have hpos : 0 < (writers between).length := by
    rw [List.length_pos_iff, ne_eq, writers_eq_nil_iff]
    intro hnone
    obtain ⟨x, hx, hxw⟩ := hdisturbed
    exact hnone x hx hxw
  have hkept := (kept_seen_sublist before).1.length_le
  have hmore : (writers before).length < (writers (before ++ (i, read) :: between)).length := by
    rw [List.append_cons, writers_append, writers_append, List.length_append, List.length_append]
    omega
  constructor
  · rw [kept_of_based i before between hread hbetween hwrite, writers_snoc_write _ i hwrite, List.length_append,
      List.length_append]
    omega
  · intro j
    have hseen := ((kept_seen_sublist (before ++ (i, read) :: between)).2 j).length_le
    rw [seen_snoc_other _ i j fun _ => not_isRead_of_isWrite hwrite, writers_snoc_write _ i hwrite,
      List.length_append]
    exact Nat.lt_succ_of_le hseen

theorem undisturbed_of_kept_eq_writers (h : kept log = writers log) : Undisturbed log := by
  intro before i read between write after hlog hread hwrite hbetween x hx hxw
  have hbehind := behind_of_disturbed before between hread hwrite hbetween ⟨x, hx, hxw⟩
  have hlater := (hbehind.append after).1
  rw [List.append_assoc, List.singleton_append, List.append_assoc, List.cons_append, ← hlog, h] at hlater
  exact lt_irrefl _ hlater

theorem kept_eq_writers_of_undisturbed (hfirst : ReadFirst log) (h : Undisturbed log) :
    kept log = writers log := by
  refine forall_prefix (P := fun done => kept done = writers done) rfl ?_ log [] (List.append_nil log).symm
  rintro done ⟨i, entry⟩ rest hlog ih
  by_cases hwrite : isWrite entry
  -- the run has seen what the account had at its last read, and nobody has written since
  · obtain ⟨before, read, between, rfl, hread, hbetween⟩ := exists_last_read (hfirst done i entry rest hlog hwrite)
    rw [List.append_assoc, List.cons_append] at hlog
    have hunwritten := h before i read between entry rest hlog hread hwrite hbetween
    have hquiet : writers ((i, read) :: between) = [] := by
      rw [writers_eq_nil_iff]
      intro x hx
      rcases List.mem_cons.mp hx with rfl | hx
      · exact fun hxw => not_isRead_of_isWrite hxw hread
      · exact hunwritten x hx
    rw [kept_of_based i before between hread hbetween hwrite, writers_snoc_write _ i hwrite, writers_append,
      hquiet, List.append_nil, ih before _ rfl]
  · rw [kept_snoc_other _ i hwrite, writers_snoc_other _ i hwrite]
    exact ih done [] (List.append_nil done).symm

/-- **Lost debits.** The account keeps every debit if and only if no run writes between the read and the write of
another. -/
theorem kept_eq_writers_iff (hfirst : ReadFirst log) : kept log = writers log ↔ Undisturbed log :=
  ⟨undisturbed_of_kept_eq_writers, kept_eq_writers_of_undisturbed hfirst⟩

end

end WalletTopUp.TopUp
