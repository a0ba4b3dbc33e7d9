import WalletTopUp.Program

/-!
# Histories of programs

A program asks, and its history is what it asked together with the answers. `Yields x history r` says that `x`
ends with `r` when it is answered as the history says. Nothing is assumed about who answers, so what holds of
every history of a program holds for every behaviour of its collaborators. Against a `Responder`, who answers
everything, a program has exactly one history.

Collaborators with a state are a relation `serves s entry t`: from the state `s` the question of the entry may
be answered as the entry says, which leaves the state `t`. `Served` runs it along a history. A program that
runs alone is `Performs`; several that run at once over the same state are `Interleaved`: their entries are
merged in some order, those of each run are a history of its program, and the state answers them as merged.
-/

namespace WalletTopUp

abbrev Interface.Entry (I : Interface) : Type := (q : I.Question) × I.Answer q

/-- Questions with their answers, in the order in which they were asked. -/
abbrev Interface.History (I : Interface) : Type := List I.Entry

variable {I : Interface} {α β σ ι : Type}

/-! ## One program -/

namespace Program

/-- The program ends with a result when its questions are answered as the history says. -/
inductive Yields : Program I α → I.History → α → Prop
  | finish (a : α) : Yields (finish a) [] a
  | ask {q : I.Question} {next : I.Answer q → Program I α} {answer : I.Answer q} {history : I.History}
      {r : α} (h : Yields (next answer) history r) : Yields (ask q next) (⟨q, answer⟩ :: history) r

@[simp] theorem yields_finish_iff {a r : α} {history : I.History} :
    (finish a : Program I α).Yields history r ↔ history = [] ∧ r = a := by
  constructor
  · rintro ⟨⟩
    exact ⟨rfl, rfl⟩
  · rintro ⟨rfl, rfl⟩
    exact .finish _

@[simp] theorem yields_ask_iff {q : I.Question} {next : I.Answer q → Program I α} {history : I.History}
    {r : α} :
    (ask q next).Yields history r ↔
      ∃ answer rest, history = ⟨q, answer⟩ :: rest ∧ (next answer).Yields rest r := by
  constructor
  · rintro ⟨⟩
    exact ⟨_, _, rfl, ‹_›⟩
  · rintro ⟨answer, rest, rfl, h⟩
    exact .ask h

theorem yields_bind_iff {x : Program I α} {f : α → Program I β} {history : I.History} {r : β} :
    (x.bind f).Yields history r ↔
      ∃ first rest a, history = first ++ rest ∧ x.Yields first a ∧ (f a).Yields rest r := by
  induction x generalizing history with
  | finish a =>
    simp only [finish_bind, yields_finish_iff]
    constructor
    · intro h
      exact ⟨[], history, a, rfl, ⟨rfl, rfl⟩, h⟩
    · rintro ⟨_, rest, _, rfl, ⟨rfl, rfl⟩, h⟩
      exact h
  | ask q next ih =>
    simp only [ask_bind, yields_ask_iff, ih]
    constructor
    · rintro ⟨answer, _, rfl, first, rest, a, rfl, h, ht⟩
      exact ⟨⟨q, answer⟩ :: first, rest, a, rfl, ⟨answer, first, rfl, h⟩, ht⟩
    · rintro ⟨_, rest, a, rfl, ⟨answer, first, rfl, h⟩, ht⟩
      exact ⟨answer, first ++ rest, rfl, first, rest, a, rfl, h, ht⟩

theorem yields_bind_finish_iff {x : Program I α} {f : α → β} {history : I.History} {r : β} :
    (x.bind fun a => .finish (f a)).Yields history r ↔ ∃ a, x.Yields history a ∧ r = f a := by
  simp only [yields_bind_iff, yields_finish_iff]
  constructor
  · rintro ⟨first, _, a, rfl, hfirst, rfl, rfl⟩
    exact ⟨a, by rwa [List.append_nil], rfl⟩
  · rintro ⟨a, ha, rfl⟩
    exact ⟨history, [], a, (List.append_nil _).symm, ha, rfl, rfl⟩

@[simp] theorem yields_perform_iff {q : I.Question} {history : I.History} {r : I.Answer q} :
    (perform q : Program I (I.Answer q)).Yields history r ↔ history = [⟨q, r⟩] := by
  unfold perform
  simp only [yields_ask_iff, yields_finish_iff]
  constructor
  · rintro ⟨answer, _, rfl, rfl, rfl⟩
    rfl
  · rintro rfl
    exact ⟨r, [], rfl, rfl, rfl⟩

theorem yields_perform_bind_iff {q : I.Question} {f : I.Answer q → Program I α} {history : I.History} {r : α} :
    (perform q >>= f).Yields history r ↔ ∃ answer rest, history = ⟨q, answer⟩ :: rest ∧ (f answer).Yields rest r :=
  yields_ask_iff

/-! ### One program for each item of a list -/

theorem yields_mapM_cons_iff {f : α → Program I β} {a : α} {as : List α} {history : I.History} {r : List β} :
    ((a :: as).mapM f).Yields history r ↔
      ∃ first rest b bs, history = first ++ rest ∧ (f a).Yields first b ∧ (as.mapM f).Yields rest bs ∧
        r = b :: bs := by
  rw [List.mapM_cons, bind_eq, yields_bind_iff]
  simp only [bind_eq, yields_bind_iff, pure_eq, yields_finish_iff]
  constructor
  · rintro ⟨first, _, b, rfl, hfirst, rest, _, bs, rfl, hrest, rfl, rfl⟩
    exact ⟨first, rest, b, bs, by rw [List.append_nil], hfirst, hrest, rfl⟩
  · rintro ⟨first, rest, b, bs, rfl, hfirst, hrest, rfl⟩
    exact ⟨first, rest, b, rfl, hfirst, rest, [], bs, (List.append_nil rest).symm, hrest, rfl, rfl⟩

theorem exists_part_of_yields_mapM {f : α → Program I β} {as : List α} {history : I.History} {r : List β}
    (h : (as.mapM f).Yields history r) {a : α} (ha : a ∈ as) :
    ∃ part b, (f a).Yields part b ∧ part ⊆ history := by
  induction as generalizing history r with
  | nil => cases ha
  | cons a' as ih =>
    obtain ⟨first, rest, b, bs, rfl, hfirst, hrest, rfl⟩ := yields_mapM_cons_iff.mp h
    rcases List.mem_cons.mp ha with rfl | ha
    · exact ⟨first, b, hfirst, List.subset_append_left _ _⟩
    · obtain ⟨part, b', hpart, hsub⟩ := ih hrest ha
      exact ⟨part, b', hpart, fun entry hentry => List.mem_append_right _ (hsub hentry)⟩

theorem exists_item_of_yields_mapM {f : α → Program I β} {as : List α} {history : I.History} {r : List β}
    (h : (as.mapM f).Yields history r) {entry : I.Entry} (hentry : entry ∈ history) :
    ∃ a ∈ as, ∃ part b, (f a).Yields part b ∧ entry ∈ part := by
  induction as generalizing history r with
  | nil =>
    obtain ⟨rfl, -⟩ := yields_finish_iff.mp h
    cases hentry
  | cons a as ih =>
    obtain ⟨first, rest, b, bs, rfl, hfirst, hrest, rfl⟩ := yields_mapM_cons_iff.mp h
    rcases List.mem_append.mp hentry with hentry | hentry
    · exact ⟨a, List.mem_cons_self, first, b, hfirst, hentry⟩
    · obtain ⟨a', ha', hpart⟩ := ih hrest hentry
      exact ⟨a', List.mem_cons_of_mem _ ha', hpart⟩

/-! ### Questions that are answered by programs -/

/-- The second history is the first one with every entry replaced by the way to its answer. -/
inductive Interpreted {J : Interface} (answer : (q : I.Question) → Program J (I.Answer q)) :
    I.History → J.History → Prop
  | nil : Interpreted answer [] []
  | cons {q : I.Question} {a : I.Answer q} {history : I.History} {first rest : J.History}
      (h : (answer q).Yields first a) (hrest : Interpreted answer history rest) :
      Interpreted answer (⟨q, a⟩ :: history) (first ++ rest)

section
variable {J : Interface} {answer : (q : I.Question) → Program J (I.Answer q)}

theorem interpreted_of_yields {x : Program I α} {history : J.History} {r : α}
    (h : (x.interpret answer).Yields history r) :
    ∃ asked, x.Yields asked r ∧ Interpreted answer asked history := by
  induction x generalizing history with
  | finish a =>
    obtain ⟨rfl, rfl⟩ := yields_finish_iff.mp h
    exact ⟨[], .finish _, .nil⟩
  | ask q next ih =>
    obtain ⟨first, rest, a, rfl, hfirst, hrest⟩ := yields_bind_iff.mp h
    obtain ⟨asked, hasked, hinterpreted⟩ := ih a hrest
    exact ⟨⟨q, a⟩ :: asked, .ask hasked, .cons hfirst hinterpreted⟩

theorem interpreted_cons_iff {q : I.Question} {a : I.Answer q} {asked : I.History} {history : J.History} :
    Interpreted answer (⟨q, a⟩ :: asked) history ↔
      ∃ first rest, history = first ++ rest ∧ (answer q).Yields first a ∧ Interpreted answer asked rest := by
  constructor
  · rintro ⟨⟩
    exact ⟨_, _, rfl, ‹_›, ‹_›⟩
  · rintro ⟨first, rest, rfl, h, hrest⟩
    exact .cons h hrest

theorem Interpreted.exists_entry_of_mem {asked : I.History} {history : J.History}
    (h : Interpreted answer asked history) {entry : J.Entry} (hentry : entry ∈ history) :
    ∃ q a part, (answer q).Yields part a ∧ entry ∈ part := by
  induction h with
  | nil => cases hentry
  | cons h hrest ih =>
    rcases List.mem_append.mp hentry with hentry | hentry
    · exact ⟨_, _, _, h, hentry⟩
    · exact ih hentry

end

end Program

/-! ## Attempts -/

namespace Attempt
variable {ε : Type} {history : I.History} {r : Except ε α}

@[simp] theorem yields_pure_iff {a : α} :
    (pure a : Attempt I ε α).run.Yields history r ↔ history = [] ∧ r = .ok a :=
  Program.yields_finish_iff

@[simp] theorem yields_throw_iff {e : ε} :
    (throw e : Attempt I ε α).run.Yields history r ↔ history = [] ∧ r = .error e :=
  Program.yields_finish_iff

theorem yields_perform_bind_iff {q : I.Question} {f : I.Answer q → Attempt I ε α} :
    (Attempt.perform q >>= f).run.Yields history r ↔
      ∃ answer rest, history = ⟨q, answer⟩ :: rest ∧ (f answer).run.Yields rest r := by
  change (Program.ask q fun answer => (f answer).run).Yields history r ↔ _
  exact Program.yields_ask_iff

/-- An attempt that goes on with another one stops with the first, or both have their part in the history. -/
theorem yields_bind_cases {x : Attempt I ε α} {f : α → Attempt I ε β} {r : Except ε β}
    (h : (x >>= f).run.Yields history r) :
    (∃ e, x.run.Yields history (.error e) ∧ r = .error e) ∨
      ∃ first rest a, history = first ++ rest ∧ x.run.Yields first (.ok a) ∧ (f a).run.Yields rest r := by
  obtain ⟨first, rest, e | a, rfl, hfirst, hrest⟩ := Program.yields_bind_iff.mp h
  · obtain ⟨rfl, rfl⟩ := Program.yields_finish_iff.mp hrest
    exact .inl ⟨e, by rwa [List.append_nil], rfl⟩
  · exact .inr ⟨first, rest, a, rfl, hfirst, hrest⟩

def Silent (x : Attempt I ε α) : Prop := ∃ r, x.run = .finish r

namespace Silent

theorem pure (a : α) : Silent (pure a : Attempt I ε α) := ⟨.ok a, rfl⟩

theorem throw (e : ε) : Silent (throw e : Attempt I ε α) := ⟨.error e, rfl⟩

theorem bind {x : Attempt I ε α} {f : α → Attempt I ε β} (hx : Silent x) (hf : ∀ a, Silent (f a)) :
    Silent (x >>= f) := by
  obtain ⟨e | a, hx⟩ := hx
  · refine ⟨.error e, ?_⟩
    rw [ExceptT.run_bind, hx]
    rfl
  · obtain ⟨r, hr⟩ := hf a
    refine ⟨r, ?_⟩
    rw [ExceptT.run_bind, hx]
    exact hr

theorem eq_nil {x : Attempt I ε α} (hx : Silent x) {history : I.History} {r : Except ε α}
    (h : x.run.Yields history r) : history = [] := by
  obtain ⟨r', hr'⟩ := hx
  rw [hr'] at h
  exact (Program.yields_finish_iff.mp h).1

end Silent

end Attempt

/-! ## Somebody who answers everything -/

/-- Answers every question, in the knowledge of all that was asked and answered before. -/
abbrev Interface.Responder (I : Interface) : Type := I.History → (q : I.Question) → I.Answer q

/-- A history that follows on the entries `past` has the answers of the responder. -/
def Answered (respond : I.Responder) : (past : I.History) → I.History → Prop
  | _, [] => True
  | past, ⟨q, answer⟩ :: rest => answer = respond past q ∧ Answered respond (past ++ [⟨q, answer⟩]) rest

theorem Answered.exists_of_mem {respond : I.Responder} {past history : I.History} (h : Answered respond past history)
    {entry : I.Entry} (hmem : entry ∈ history) : ∃ known, entry.2 = respond known entry.1 := by
  induction history generalizing past with
  | nil => cases hmem
  | cons first history ih =>
    obtain ⟨hfirst, hrest⟩ := h
    rcases List.mem_cons.mp hmem with rfl | hmem
    · exact ⟨past, hfirst⟩
    · exact ih hrest hmem

theorem answered_append_iff {respond : I.Responder} {past first rest : I.History} :
    Answered respond past (first ++ rest) ↔ Answered respond past first ∧ Answered respond (past ++ first) rest := by
  induction first generalizing past with
  | nil => simp [Answered]
  | cons entry first ih =>
    simp only [List.cons_append, Answered, ih, List.append_assoc, and_assoc]
    rfl

namespace Program

/-- Whoever answers, the program comes to its end. -/
theorem exists_answered (x : Program I α) (respond : I.Responder) (past : I.History) :
    ∃ history r, Answered respond past history ∧ x.Yields history r := by
  induction x generalizing past with
  | finish a => exact ⟨[], a, trivial, .finish a⟩
  | ask q next ih =>
    obtain ⟨history, r, hanswered, hyields⟩ := ih (respond past q) (past ++ [⟨q, respond past q⟩])
    exact ⟨⟨q, respond past q⟩ :: history, r, ⟨rfl, hanswered⟩, .ask hyields⟩

/-- The answers leave the program only one way to go. -/
theorem Yields.unique {x : Program I α} {respond : I.Responder} {past history history' : I.History} {r r' : α}
    (h : x.Yields history r) (hanswered : Answered respond past history) (h' : x.Yields history' r')
    (hanswered' : Answered respond past history') : history' = history ∧ r' = r := by
  induction h generalizing past history' with
  | finish a => exact yields_finish_iff.mp h'
  | ask hnext ih =>
    obtain ⟨answer, rest, rfl, hrest⟩ := yields_ask_iff.mp h'
    obtain ⟨rfl, hanswered⟩ := hanswered
    obtain ⟨rfl, hanswered'⟩ := hanswered'
    obtain ⟨rfl, rfl⟩ := ih hanswered hrest hanswered'
    exact ⟨rfl, rfl⟩

end Program

/-! ## Programs over a state -/

/-- The state answers the entries of a history one after the other. -/
inductive Served (serves : σ → I.Entry → σ → Prop) : σ → I.History → σ → Prop
  | nil (s : σ) : Served serves s [] s
  | cons {s t u : σ} {entry : I.Entry} {history : I.History} (h : serves s entry t)
      (rest : Served serves t history u) : Served serves s (entry :: history) u

section Served
variable {serves : σ → I.Entry → σ → Prop} {s t u : σ}

@[simp] theorem served_nil_iff : Served serves s [] t ↔ t = s := by
  constructor
  · rintro ⟨⟩
    rfl
  · rintro rfl
    exact .nil _

@[simp] theorem served_cons_iff {entry : I.Entry} {history : I.History} :
    Served serves s (entry :: history) u ↔ ∃ t, serves s entry t ∧ Served serves t history u := by
  constructor
  · rintro ⟨⟩
    exact ⟨_, ‹_›, ‹_›⟩
  · rintro ⟨t, h, rest⟩
    exact .cons h rest

theorem served_append_iff {first rest : I.History} :
    Served serves s (first ++ rest) u ↔ ∃ t, Served serves s first t ∧ Served serves t rest u := by
  induction first generalizing s with
  | nil => simp
  | cons entry first ih =>
    simp only [List.cons_append, served_cons_iff, ih]
    constructor
    · rintro ⟨v, h, t, hf, hr⟩
      exact ⟨t, ⟨v, h, hf⟩, hr⟩
    · rintro ⟨t, ⟨v, h, hf⟩, hr⟩
      exact ⟨v, h, t, hf, hr⟩

theorem Served.exists_of_mem {history : I.History} {entry : I.Entry} (h : Served serves s history t)
    (hmem : entry ∈ history) : ∃ s' t', serves s' entry t' := by
  induction h with
  | nil => cases hmem
  | cons h rest ih =>
    rcases List.mem_cons.mp hmem with rfl | hmem
    · exact ⟨_, _, h⟩
    · exact ih hmem

end Served

/-- The program runs alone from one state to another and ends with a result. -/
def Performs (serves : σ → I.Entry → σ → Prop) (x : Program I α) (s : σ) (r : α) (t : σ) : Prop :=
  ∃ history, x.Yields history r ∧ Served serves s history t

/-! ## Several programs at once -/

/-- The entries of one of several runs. -/
def entriesOf [DecidableEq ι] (i : ι) (log : List (ι × I.Entry)) : I.History :=
  (log.filter (·.1 = i)).map (·.2)

/-- Several programs run at once over one state, each to its end. The log holds all their entries in the order
in which they took place, each with the run that it belongs to. -/
structure Interleaved [DecidableEq ι] (serves : σ → I.Entry → σ → Prop) (x : ι → Program I α) (s : σ)
    (log : List (ι × I.Entry)) (r : ι → α) (t : σ) : Prop where
  yields : ∀ i, (x i).Yields (entriesOf i log) (r i)
  served : Served serves s (log.map (·.2)) t

section entriesOf
variable [DecidableEq ι] {i : ι} {log : List (ι × I.Entry)}

theorem entriesOf_append (log' : List (ι × I.Entry)) :
    entriesOf i (log ++ log') = entriesOf i log ++ entriesOf i log' := by
  simp [entriesOf]

@[simp] theorem entriesOf_cons_self {entry : I.Entry} :
    entriesOf i ((i, entry) :: log) = entry :: entriesOf i log := by
  simp [entriesOf]

theorem entriesOf_cons_of_ne {j : ι} {entry : I.Entry} (h : j ≠ i) :
    entriesOf i ((j, entry) :: log) = entriesOf i log := by
  simp [entriesOf, h]

theorem mem_entriesOf {entry : I.Entry} : entry ∈ entriesOf i log ↔ (i, entry) ∈ log := by
  simp [entriesOf]

theorem entriesOf_map_self (history : I.History) : entriesOf i (history.map (i, ·)) = history := by
  induction history with
  | nil => rfl
  | cons entry history ih => rw [List.map_cons, entriesOf_cons_self, ih]

theorem entriesOf_map_of_ne {j : ι} (history : I.History) (h : j ≠ i) :
    entriesOf i (history.map (j, ·)) = [] := by
  induction history with
  | nil => rfl
  | cons entry history ih => rw [List.map_cons, entriesOf_cons_of_ne h, ih]

theorem exists_of_entriesOf_eq {entry : I.Entry} {first rest : I.History}
    (h : entriesOf i log = first ++ entry :: rest) :
    ∃ before after, log = before ++ (i, entry) :: after ∧ entriesOf i before = first ∧
      entriesOf i after = rest := by
  induction log generalizing first with
  | nil => simp [entriesOf] at h
  | cons x log ih =>
    obtain ⟨j, e⟩ := x
    by_cases hj : j = i
    · subst hj
      rw [entriesOf_cons_self] at h
      rcases first with _ | ⟨f, first⟩
      · obtain ⟨rfl, rfl⟩ := List.cons.inj h
        exact ⟨[], log, rfl, rfl, rfl⟩
      · obtain ⟨rfl, htail⟩ := List.cons.inj h
        obtain ⟨before, after, rfl, rfl, rfl⟩ := ih htail
        exact ⟨(j, e) :: before, after, rfl, entriesOf_cons_self, rfl⟩
    · rw [entriesOf_cons_of_ne hj] at h
      obtain ⟨before, after, rfl, hbefore, hafter⟩ := ih h
      exact ⟨(j, e) :: before, after, rfl, by rw [entriesOf_cons_of_ne hj, hbefore], hafter⟩

end entriesOf

end WalletTopUp
