import Mathlib.Algebra.BigOperators.Fin
import Mathlib.Data.Fintype.Basic
import Mathlib.Data.List.FinRange
import WalletTopUp.Proofs.History

/-!
# Programs that are underway

`Interleaved` describes several programs that run at once, each to its end. Here they may have stopped anywhere:
`Reaches` says what is left of one program after some entries of its history, and `Underway` what is left of all of
them after the entries of a log. So what holds of every log of `Underway` holds in every reachable state.

Programs that are underway never wait for one another. When the state has an answer to every question they all come to
their ends, in whatever order they have gone on so far (`Underway.exists_interleaved`). Running them one after the other
is one of the orders (`interleaved_of_mapM`).
-/

namespace WalletTopUp

variable {I J : Interface} {α β σ τ ι : Type}

/-! ## One program -/

namespace Program

/-- The entries of the history lead from the program to what is left of it. -/
inductive Reaches : Program I α → I.History → Program I α → Prop
  | refl (x : Program I α) : Reaches x [] x
  | ask {q : I.Question} {next : I.Answer q → Program I α} {answer : I.Answer q} {history : I.History}
      {y : Program I α} (h : Reaches (next answer) history y) : Reaches (ask q next) (⟨q, answer⟩ :: history) y

theorem Yields.reaches {x : Program I α} {history : I.History} {r : α} (h : x.Yields history r) :
    x.Reaches history (Program.finish r) := by
  induction h with
  | finish a => exact .refl _
  | ask h ih => exact .ask ih

theorem Reaches.yields {x y : Program I α} {first rest : I.History} {r : α} (h : x.Reaches first y)
    (hrest : y.Yields rest r) : x.Yields (first ++ rest) r := by
  induction h with
  | refl x => exact hrest
  | ask h ih => exact .ask (ih hrest)

theorem Reaches.trans {x y z : Program I α} {first rest : I.History} (h : x.Reaches first y)
    (hrest : y.Reaches rest z) : x.Reaches (first ++ rest) z := by
  induction h with
  | refl x => exact hrest
  | ask h ih => exact .ask (ih hrest)

theorem Reaches.exists_yields {x y : Program I α} {history : I.History} (h : x.Reaches history y)
    (respond : I.Responder) : ∃ rest r, x.Yields (history ++ rest) r := by
  obtain ⟨rest, r, -, hrest⟩ := y.exists_answered respond []
  exact ⟨rest, r, h.yields hrest⟩

/-- A program comes to its end when states of a kind have an answer to every question and stay of the kind. -/
theorem exists_served_within {serves : σ → I.Entry → σ → Prop} {kind : σ → Prop}
    (answers : ∀ s, kind s → ∀ q, ∃ answer t, serves s ⟨q, answer⟩ t ∧ kind t) (x : Program I α) {s : σ} (hs : kind s) :
    ∃ history r t, x.Yields history r ∧ Served serves s history t := by
  induction x generalizing s with
  | finish a => exact ⟨[], a, s, .finish a, .nil s⟩
  | ask q next ih =>
    obtain ⟨answer, t, hserves, ht⟩ := answers s hs q
    obtain ⟨history, r, u, hyields, hserved⟩ := ih answer ht
    exact ⟨⟨q, answer⟩ :: history, r, u, .ask hyields, .cons hserves hserved⟩

theorem exists_served {serves : σ → I.Entry → σ → Prop} (answers : ∀ s q, ∃ answer t, serves s ⟨q, answer⟩ t)
    (x : Program I α) (s : σ) : ∃ history r t, x.Yields history r ∧ Served serves s history t := by
  have hall : ∀ s, True → ∀ q, ∃ answer t, serves s ⟨q, answer⟩ t ∧ True := by
    intro s _ q
    obtain ⟨answer, t, h⟩ := answers s q
    exact ⟨answer, t, h, trivial⟩
  exact exists_served_within hall x trivial

/-- A state that has one answer to every question, and is one state afterwards, leaves the program one way to go. -/
theorem Yields.unique_of_served {serves : σ → I.Entry → σ → Prop} {s t t' : σ} {x : Program I α}
    {history history' : I.History} {r r' : α}
    (determined : ∀ s q answer answer' t t',
      serves s ⟨q, answer⟩ t → serves s ⟨q, answer'⟩ t' → answer' = answer ∧ t' = t)
    (h : x.Yields history r) (hserved : Served serves s history t) (h' : x.Yields history' r')
    (hserved' : Served serves s history' t') : history' = history ∧ r' = r ∧ t' = t := by
  induction h generalizing s history' with
  | finish a =>
    obtain ⟨rfl, rfl⟩ := yields_finish_iff.mp h'
    exact ⟨rfl, rfl, (served_nil_iff.mp hserved').trans (served_nil_iff.mp hserved).symm⟩
  | ask hnext ih =>
    obtain ⟨answer', rest, rfl, hrest⟩ := yields_ask_iff.mp h'
    obtain ⟨u, hserves, hserved⟩ := served_cons_iff.mp hserved
    obtain ⟨u', hserves', hserved'⟩ := served_cons_iff.mp hserved'
    obtain ⟨rfl, rfl⟩ := determined _ _ _ _ _ _ hserves hserves'
    obtain ⟨rfl, rfl, rfl⟩ := ih hserved hrest hserved'
    exact ⟨rfl, rfl, rfl⟩

end Program

/-! ## Several programs -/

/-- Several programs have run so far over one state. The log holds the entries that have taken place, each with its
run, and the rest of each program is still to come. -/
structure Underway [DecidableEq ι] (serves : σ → I.Entry → σ → Prop) (x : ι → Program I α) (s : σ)
    (log : List (ι × I.Entry)) (left : ι → Program I α) (t : σ) : Prop where
  reaches : ∀ i, (x i).Reaches (entriesOf i log) (left i)
  served : Served serves s (log.map (·.2)) t

section Underway
variable [DecidableEq ι] {serves : σ → I.Entry → σ → Prop} {x left : ι → Program I α} {s t : σ}
  {log : List (ι × I.Entry)}

/-- What a program asks next, unless it has ended. -/
def Program.next? : Program I α → Option I.Question
  | .finish _ => none
  | .ask q _ => some q

/-- What a run has asked so far. The answer to the last question may still be on its way. -/
def asked (i : ι) (log : List (ι × I.Entry)) (left : ι → Program I α) : List I.Question :=
  (entriesOf i log).map (·.1) ++ (left i).next?.toList

/-- A run asks a question after the entries `before` of the log. -/
inductive Asks (log : List (ι × I.Entry)) (left : ι → Program I α) (i : ι) : List (ι × I.Entry) → I.Question → Prop
  | answered {before after : List (ι × I.Entry)} {q : I.Question} {answer : I.Answer q}
      (h : log = before ++ (i, ⟨q, answer⟩) :: after) : Asks log left i before q
  | pending {q : I.Question} (h : (left i).next? = some q) : Asks log left i log q

theorem Underway.start (serves : σ → I.Entry → σ → Prop) (x : ι → Program I α) (s : σ) :
    Underway serves x s [] x s where
  reaches _ := .refl _
  served := .nil s

/-- With an answer to what a run asks next, all that it has asked stands in the log. -/
theorem Underway.exists_answer (h : Underway serves x s log left t)
    (answers : ∀ s q, ∃ answer t, serves s ⟨q, answer⟩ t) (i : ι) :
    ∃ more left' t', Underway serves x s (log ++ more) left' t' ∧
      asked i log left = (entriesOf i (log ++ more)).map (·.1) ∧
        ∀ before q, Asks log left i before q → ∃ answer after, log ++ more = before ++ (i, ⟨q, answer⟩) :: after := by
  rcases hleft : left i with r | ⟨q, next⟩
  · refine ⟨[], left, t, by rwa [List.append_nil], by simp [asked, hleft, Program.next?], ?_⟩
    rintro before q (hlog | hnext)
    · exact ⟨_, _, by rw [List.append_nil, hlog]⟩
    · rw [hleft] at hnext
      cases hnext
  · obtain ⟨answer, u, hserves⟩ := answers t q
    refine ⟨[(i, ⟨q, answer⟩)], Function.update left i (next answer), u, ⟨fun j => ?_, ?_⟩, ?_, ?_⟩
    · rw [entriesOf_append]
      by_cases hj : j = i
      · subst hj
        have hreaches : (x j).Reaches (entriesOf j log) (.ask q next) := hleft ▸ h.reaches j
        rw [Function.update_self, entriesOf_cons_self]
        exact hreaches.trans (.ask (.refl _))
      · rw [Function.update_of_ne hj, entriesOf_cons_of_ne (Ne.symm hj)]
        exact (List.append_nil _).symm ▸ h.reaches j
    · rw [List.map_append, served_append_iff]
      exact ⟨t, h.served, .cons hserves (.nil u)⟩
    · rw [entriesOf_append, entriesOf_cons_self, List.map_append, asked, hleft]
      rfl
    · rintro before q' (hlog | hnext)
      · exact ⟨_, _, by rw [hlog, List.append_assoc, List.cons_append]⟩
      · rw [hleft] at hnext
        cases hnext
        exact ⟨answer, [], rfl⟩

theorem Underway.finish_one (h : Underway serves x s log left t)
    (answers : ∀ s q, ∃ answer t, serves s ⟨q, answer⟩ t) (i : ι) :
    ∃ more r u, Underway serves x s (log ++ more) (Function.update left i (.finish r)) u := by
  obtain ⟨rest, r, u, hyields, hserved⟩ := (left i).exists_served answers t
  refine ⟨rest.map (i, ·), r, u, fun j => ?_, ?_⟩
  · rw [entriesOf_append]
    by_cases hj : j = i
    · subst hj
      rw [entriesOf_map_self, Function.update_self]
      exact (h.reaches j).trans hyields.reaches
    · rw [entriesOf_map_of_ne rest (Ne.symm hj), List.append_nil, Function.update_of_ne hj]
      exact h.reaches j
  · rw [List.map_append, served_append_iff]
    refine ⟨t, h.served, ?_⟩
    rwa [List.map_map, show Prod.snd ∘ (fun entry : I.Entry => (i, entry)) = id from rfl, List.map_id]

/-- **Whatever has happened so far, all runs come to their ends.** -/
theorem Underway.exists_interleaved [Fintype ι] (h : Underway serves x s log left t)
    (answers : ∀ s q, ∃ answer t, serves s ⟨q, answer⟩ t) :
    ∃ more r u, Interleaved serves x s (log ++ more) r u := by
  -- the runs that have not ended yet are among `waiting`
  have hfinish : ∀ (waiting : Finset ι) (log : List (ι × I.Entry)) (left : ι → Program I α) (t : σ),
      Underway serves x s log left t → (∀ i ∉ waiting, ∃ r, left i = .finish r) →
        ∃ more r u, Interleaved serves x s (log ++ more) r u := by
    intro waiting
    induction waiting using Finset.induction_on with
    | empty =>
      intro log left t h hended
      choose r hr using fun i => hended i (Finset.notMem_empty i)
      refine ⟨[], r, t, ?_, ?_⟩
      · intro i
        have hend : (left i).Yields [] (r i) := by
          rw [hr i]
          exact .finish (r i)
        have hyields := (h.reaches i).yields hend
        rwa [List.append_nil] at hyields ⊢
      · rw [List.append_nil]
        exact h.served
    | insert i waiting hi ih =>
      intro log left t h hended
      obtain ⟨more, r, u, hone⟩ := h.finish_one answers i
      obtain ⟨more', r', u', hall⟩ := ih _ _ _ hone fun j hj => by
        by_cases hji : j = i
        · exact ⟨r, by rw [hji, Function.update_self]⟩
        · rw [Function.update_of_ne hji]
          exact hended j (by simp [hji, hj])
      exact ⟨more ++ more', r', u', by rwa [← List.append_assoc]⟩
  exact hfinish Finset.univ log left t h fun i hi => absurd (Finset.mem_univ i) hi

end Underway

/-! ## Counting in a log -/

section entriesOf
variable [DecidableEq ι] [Fintype ι]

/-- What is added up over a log can be added up run by run. -/
theorem sum_entriesOf (f : I.Entry → Nat) (log : List (ι × I.Entry)) :
    ((log.map (·.2)).map f).sum = ∑ i, ((entriesOf i log).map f).sum := by
  induction log with
  | nil => simp [entriesOf]
  | cons x log ih =>
    obtain ⟨j, entry⟩ := x
    have hcons : ∀ i, ((entriesOf i ((j, entry) :: log)).map f).sum =
        (if j = i then f entry else 0) + ((entriesOf i log).map f).sum := by
      intro i
      by_cases hj : j = i
      · subst hj
        rw [entriesOf_cons_self, if_pos rfl, List.map_cons, List.sum_cons]
      · rw [entriesOf_cons_of_ne hj, if_neg hj, Nat.zero_add]
    rw [List.map_cons, List.map_cons, List.sum_cons, ih, Finset.sum_congr rfl fun i _ => hcons i,
      Finset.sum_add_distrib, Finset.sum_ite_eq, if_pos (Finset.mem_univ j)]

theorem sum_length_entriesOf (log : List (ι × I.Entry)) : log.length = ∑ i, (entriesOf i log).length := by
  have hsum := sum_entriesOf (fun _ => 1) log
  simpa [Function.comp_def] using hsum

end entriesOf

theorem any_entriesOf [DecidableEq ι] {f : I.Entry → Bool} {log : List (ι × I.Entry)} :
    (log.map (·.2)).any f ↔ ∃ i, (entriesOf i log).any f := by
  simp only [List.any_eq_true, List.mem_map, mem_entriesOf]
  constructor
  · rintro ⟨_, ⟨⟨i, entry⟩, hmem, rfl⟩, hf⟩
    exact ⟨i, entry, hmem, hf⟩
  · rintro ⟨i, entry, hmem, hf⟩
    exact ⟨entry, ⟨(i, entry), hmem, rfl⟩, hf⟩

theorem filterMap_entriesOf [DecidableEq ι] {f : I.Entry → Option β} {i : ι} {log : List (ι × I.Entry)}
    (h : ∀ j entry, (j, entry) ∈ log → j ≠ i → f entry = none) :
    (log.map (·.2)).filterMap f = (entriesOf i log).filterMap f := by
  induction log with
  | nil => rfl
  | cons x log ih =>
    obtain ⟨j, entry⟩ := x
    have hrest := ih fun j entry hmem => h j entry (List.mem_cons_of_mem _ hmem)
    by_cases hj : j = i
    · subst hj
      rw [entriesOf_cons_self, List.map_cons, List.filterMap_cons, List.filterMap_cons, hrest]
    · have hnone : f entry = none := h j entry List.mem_cons_self hj
      rw [entriesOf_cons_of_ne hj, List.map_cons, List.filterMap_cons_none hnone, hrest]

/-! ## One program after the other -/

theorem Program.exists_parts_of_yields_mapM {f : β → Program I α} {items : List β} {history : I.History} {rs : List α}
    (h : (items.mapM f).Yields history rs) :
    ∃ (parts : Fin items.length → I.History) (r : Fin items.length → α),
      (∀ i, (f (items.get i)).Yields (parts i) (r i)) ∧ history = (List.finRange items.length).flatMap parts ∧
        rs = List.ofFn r := by
  induction items generalizing history rs with
  | nil =>
    obtain ⟨rfl, rfl⟩ := Program.yields_finish_iff.mp h
    exact ⟨Fin.elim0, Fin.elim0, fun i => i.elim0, rfl, rfl⟩
  | cons item items ih =>
    obtain ⟨first, rest, a, as, rfl, hfirst, hrest, rfl⟩ := Program.yields_mapM_cons_iff.mp h
    obtain ⟨parts, r, hparts, rfl, rfl⟩ := ih hrest
    refine ⟨Fin.cons first parts, Fin.cons a r, ?_, ?_, ?_⟩
    · exact Fin.cases hfirst hparts
    · simp [List.length_cons, List.finRange_succ, List.flatMap_map]
    · simp [List.length_cons, List.ofFn_succ]

theorem entriesOf_blocks [DecidableEq ι] (parts : ι → I.History) {runs : List ι} (hruns : runs.Nodup) {i : ι}
    (hi : i ∈ runs) : entriesOf i (runs.flatMap fun j => (parts j).map (j, ·)) = parts i := by
  obtain ⟨before, after, rfl⟩ := List.append_of_mem hi
  have hblocks : ∀ others : List ι, i ∉ others → entriesOf i (others.flatMap fun j => (parts j).map (j, ·)) = [] := by
    intro others hothers
    rw [entriesOf, List.filter_flatMap, List.map_flatMap, List.flatMap_eq_nil_iff]
    intro j hj
    have hne : j ≠ i := fun h => hothers (h ▸ hj)
    exact entriesOf_map_of_ne (parts j) hne
  rw [List.nodup_append, List.nodup_cons] at hruns
  obtain ⟨-, ⟨hafter, -⟩, hdisjoint⟩ := hruns
  have hbefore : i ∉ before := fun hmem => hdisjoint i hmem i List.mem_cons_self rfl
  rw [List.flatMap_append, List.flatMap_cons, entriesOf_append, entriesOf_append, hblocks before hbefore,
    hblocks after hafter, entriesOf_map_self, List.nil_append, List.append_nil]

/-- **One after the other is one of the orders.** -/
theorem interleaved_of_mapM {serves : σ → I.Entry → σ → Prop} {f : β → Program I α} {items : List β}
    {history : I.History} {rs : List α} {s t : σ} (h : (items.mapM f).Yields history rs)
    (hserved : Served serves s history t) :
    ∃ log r, Interleaved serves (fun i : Fin items.length => f (items.get i)) s log r t ∧ rs = List.ofFn r := by
  obtain ⟨parts, r, hparts, rfl, rfl⟩ := Program.exists_parts_of_yields_mapM h
  refine ⟨(List.finRange items.length).flatMap fun j => (parts j).map (j, ·), r, ⟨fun i => ?_, ?_⟩, rfl⟩
  · rw [entriesOf_blocks parts (List.nodup_finRange _) (List.mem_finRange i)]
    exact hparts i
  · rw [List.map_flatMap]
    simpa [Function.comp_def] using hserved

end WalletTopUp
