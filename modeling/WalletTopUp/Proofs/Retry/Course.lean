import WalletTopUp.Proofs.History
import WalletTopUp.Retry.Loop

/-!
# The course of a loop

A loop that tries again makes calls, with pauses between them. `answered_of_yields` says what came back for the calls,
whatever it was: failures that are worth another call as long as retries are left, and then the result.
-/

namespace WalletTopUp.Retry
variable {ε α : Type} {policy : RetryPolicy} {worthIt : ε → Bool} {left attempt : Nat}
  {history : (interface ε α).History} {r : Except ε α}

def answer? : (interface ε α).Entry → Option (Except ε α)
  | ⟨.call, answer⟩ => some answer
  | _ => none

/-- What came back for the calls, in their order. -/
def answers (history : (interface ε α).History) : List (Except ε α) := history.filterMap answer?

/-! ## One wait -/

/-- The entries of a wait before retry number `attempt + 1`. -/
def waiting (policy : RetryPolicy) (attempt : Nat) (drawn : Fin 1000) : (interface ε α).History :=
  (if policy.jitter then [⟨.draw, drawn⟩] else []) ++ [⟨.pause (policy.backoff attempt drawn), ()⟩]

theorem exists_waiting_of_yields (h : (wait policy attempt : Program (interface ε α) Unit).Yields history ()) :
    ∃ drawn, history = waiting policy attempt drawn := by
  unfold wait at h
  by_cases hjitter : policy.jitter
  · rw [if_pos hjitter] at h
    obtain ⟨drawn, _, rfl, hpause⟩ := Program.yields_perform_bind_iff.mp h
    obtain rfl := Program.yields_perform_iff.mp hpause
    exact ⟨drawn, by simp [waiting, hjitter]⟩
  · rw [if_neg hjitter] at h
    obtain rfl := Program.yields_perform_iff.mp h
    exact ⟨RetryPolicy.noDraw, by simp [waiting, hjitter]⟩

@[simp] theorem answers_waiting {drawn : Fin 1000} {rest : (interface ε α).History} :
    answers (waiting policy attempt drawn ++ rest) = answers rest := by
  unfold waiting
  split <;> rfl

theorem length_waiting_le {drawn : Fin 1000} :
    (waiting policy attempt drawn : (interface ε α).History).length ≤ 2 := by
  unfold waiting
  split <;> simp

/-! ## The calls -/

variable (worthIt) in
/-- The failures of a loop with `left` retries before its result. -/
structure Fails (left : Nat) (history : (interface ε α).History) (r : Except ε α) (failures : List ε) : Prop where
  answers_eq : answers history = failures.map .error ++ [r]
  worth : ∀ e ∈ failures, worthIt e
  length_le : failures.length ≤ left
  /-- The loop gives up only when nothing is left or another call is not worth it. -/
  exhausted : ∀ e, r = .error e → worthIt e → failures.length = left
  entries_le : history.length ≤ 3 * failures.length + 1

theorem answered_of_yields (h : (attempts policy worthIt left).Yields history r) :
    ∃ failures, Fails worthIt left history r failures := by
  induction left generalizing history with
  | zero =>
    obtain rfl := Program.yields_perform_iff.mp h
    exact ⟨[], rfl, by simp, Nat.le_refl _, fun _ _ _ => rfl, Nat.le_refl _⟩
  | succ left ih =>
    obtain ⟨e | a, rest, rfl, hrest⟩ := Program.yields_perform_bind_iff.mp h
    · by_cases hworth : worthIt e
      · dsimp only at hrest
        rw [if_pos hworth] at hrest
        obtain ⟨waited, again, ⟨⟩, rfl, hwaited, hagain⟩ := Program.yields_bind_iff.mp hrest
        obtain ⟨drawn, rfl⟩ := exists_waiting_of_yields hwaited
        obtain ⟨failures, hanswers, hall, hle, hexhausted, hentries⟩ := ih hagain
        refine ⟨e :: failures, ?_, List.forall_mem_cons.mpr ⟨hworth, hall⟩, Nat.succ_le_succ hle, ?_, ?_⟩
        · change .error e :: answers (waiting policy _ drawn ++ again) = _
          rw [answers_waiting, hanswers]
          rfl
        · intro e' hr hworth'
          rw [List.length_cons, hexhausted e' hr hworth']
        · have hwaiting :
              (waiting policy (policy.maxRetries - (left + 1)) drawn : (interface ε α).History).length ≤ 2 :=
            length_waiting_le
          simp only [List.length_cons, List.length_append]
          omega
      · dsimp only at hrest
        rw [if_neg hworth] at hrest
        obtain ⟨rfl, rfl⟩ := Program.yields_finish_iff.mp hrest
        refine ⟨[], rfl, by simp, Nat.zero_le _, ?_, Nat.le_refl _⟩
        rintro e' ⟨⟩ hworth'
        exact absurd hworth' hworth
    · obtain ⟨rfl, rfl⟩ := Program.yields_finish_iff.mp hrest
      exact ⟨[], rfl, by simp, Nat.zero_le _, nofun, Nat.le_refl _⟩

end WalletTopUp.Retry
