import Mathlib.Data.List.Forall2
import WalletTopUp.Proofs.History

/-!
# Two runs

Two runs may be answered differently. `alike` says which answers to a question count as the same, and `Program.Rel`
lifts a relation between results to programs: both programs ask the same, alike answers lead them to related programs,
and they end with related results. What is related so ends with related results under responders that answer alike
(`Program.Rel.results`).
-/

namespace WalletTopUp

variable {I : Interface} {alike : (q : I.Question) → I.Answer q → I.Answer q → Prop} {α β γ δ : Type}

/-- The same question with answers that are alike. -/
inductive Interface.Entry.Rel (alike : (q : I.Question) → I.Answer q → I.Answer q → Prop) : I.Entry → I.Entry → Prop
  | intro {q : I.Question} {a a' : I.Answer q} (h : alike q a a') : Rel alike ⟨q, a⟩ ⟨q, a'⟩

/-- Entry by entry, the questions are the same and the answers alike. -/
abbrev Interface.History.Rel (alike : (q : I.Question) → I.Answer q → I.Answer q → Prop) :
    I.History → I.History → Prop :=
  List.Forall₂ (Interface.Entry.Rel alike)

/-- As long as they have been asked the same and have answered alike, both answer alike. -/
def Interface.Responder.Rel (alike : (q : I.Question) → I.Answer q → I.Answer q → Prop)
    (respond respond' : I.Responder) :
    Prop :=
  ∀ past past' : I.History, past.Rel alike past' → ∀ q, alike q (respond past q) (respond' past' q)

namespace Program

/-- Both programs ask the same as long as they are answered alike, and their results are related. -/
inductive Rel (alike : (q : I.Question) → I.Answer q → I.Answer q → Prop) (R : α → β → Prop) :
    Program I α → Program I β → Prop
  | finish {a : α} {b : β} (h : R a b) : Rel alike R (finish a) (finish b)
  | ask {q : I.Question} {next : I.Answer q → Program I α} {next' : I.Answer q → Program I β}
      (h : ∀ answer answer', alike q answer answer' → Rel alike R (next answer) (next' answer')) :
      Rel alike R (ask q next) (ask q next')

namespace Rel
variable {R : α → β → Prop} {S : γ → δ → Prop} {x : Program I α} {y : Program I β}

theorem bind (h : Rel alike R x y) {f : α → Program I γ} {g : β → Program I δ}
    (hnext : ∀ a b, R a b → Rel alike S (f a) (g b)) : Rel alike S (x.bind f) (y.bind g) := by
  induction h with
  | finish h => exact hnext _ _ h
  | ask _ ih => exact .ask ih

/-- Under responders that answer alike both runs go the same way. -/
theorem results (h : Rel alike R x y) {respond respond' : I.Responder} (hrespond : respond.Rel alike respond')
    {past past' history history' : I.History} (hpast : past.Rel alike past') {r : α} {r' : β}
    (hx : x.Yields history r) (hanswered : Answered respond past history) (hy : y.Yields history' r')
    (hanswered' : Answered respond' past' history') : R r r' ∧ history.Rel alike history' := by
  induction h generalizing past past' history history' with
  | finish h =>
    obtain ⟨rfl, rfl⟩ := yields_finish_iff.mp hx
    obtain ⟨rfl, rfl⟩ := yields_finish_iff.mp hy
    exact ⟨h, .nil⟩
  | @ask q _ _ _ ih =>
    obtain ⟨answer, rest, rfl, hrest⟩ := yields_ask_iff.mp hx
    obtain ⟨answer', rest', rfl, hrest'⟩ := yields_ask_iff.mp hy
    obtain ⟨hanswer, hanswered⟩ := hanswered
    obtain ⟨hanswer', hanswered'⟩ := hanswered'
    have halike : alike q answer answer' := by
      rw [hanswer, hanswer']
      exact hrespond past past' hpast q
    have hentry : Interface.Entry.Rel alike ⟨q, answer⟩ ⟨q, answer'⟩ := .intro halike
    obtain ⟨hresult, hhistory⟩ := ih answer answer' halike (List.rel_append hpast (.cons hentry .nil)) hrest hanswered
      hrest' hanswered'
    exact ⟨hresult, .cons hentry hhistory⟩

end Rel

end Program

/-! ## Attempts -/

/-- Both fail with related errors, or both have the same result. -/
inductive SameOr {ε ε' : Type} (E : ε → ε' → Prop) : Except ε α → Except ε' α → Prop
  | error {e : ε} {e' : ε'} (h : E e e') : SameOr E (.error e) (.error e')
  | ok (a : α) : SameOr E (.ok a) (.ok a)

namespace Attempt
variable {ε ε' : Type} {E : ε → ε' → Prop}

/-- Both attempts ask the same as long as they are answered alike, and they fail with related errors or have the same
result. -/
def Rel (alike : (q : I.Question) → I.Answer q → I.Answer q → Prop) (E : ε → ε' → Prop) (x : Attempt I ε α)
    (y : Attempt I ε' α) : Prop :=
  Program.Rel alike (SameOr E) x.run y.run

namespace Rel

theorem pure (a : α) : Rel alike E (pure a) (pure a) := .finish (.ok a)

theorem throw {e : ε} {e' : ε'} (h : E e e') : Rel alike E (throw e : Attempt I ε α) (throw e') := .finish (.error h)

theorem bind {x : Attempt I ε α} {y : Attempt I ε' α} (h : Rel alike E x y) {f : α → Attempt I ε β}
    {g : α → Attempt I ε' β} (hnext : ∀ a, Rel alike E (f a) (g a)) : Rel alike E (x >>= f) (y >>= g) := by
  refine Program.Rel.bind h ?_
  rintro _ _ (herror | a)
  · exact .finish (.error herror)
  · exact hnext a

theorem perform_bind {q : I.Question} {f : I.Answer q → Attempt I ε β} {g : I.Answer q → Attempt I ε' β}
    (h : ∀ answer answer', alike q answer answer' → Rel alike E (f answer) (g answer')) :
    Rel alike E (Attempt.perform q >>= f) (Attempt.perform q >>= g) :=
  .ask h

theorem perform_bind_of_eq {q : I.Question} {f : I.Answer q → Attempt I ε β} {g : I.Answer q → Attempt I ε' β}
    (heq : ∀ answer answer', alike q answer answer' → answer = answer')
    (h : ∀ answer, Rel alike E (f answer) (g answer)) :
    Rel alike E (Attempt.perform q >>= f) (Attempt.perform q >>= g) := by
  refine perform_bind fun answer answer' halike => ?_
  obtain rfl := heq answer answer' halike
  exact h answer

theorem lift_bind {R : γ → δ → Prop} {x : Program I γ} {y : Program I δ} (h : Program.Rel alike R x y)
    {f : γ → Attempt I ε β} {g : δ → Attempt I ε' β} (hnext : ∀ a b, R a b → Rel alike E (f a) (g b)) :
    Rel alike E (ExceptT.lift x >>= f) (ExceptT.lift y >>= g) := by
  unfold Rel
  rw [ExceptT.run_bind_lift, ExceptT.run_bind_lift]
  exact h.bind hnext

end Rel

end Attempt

end WalletTopUp
