import Mathlib.Order.Bounds.Basic
import WalletTopUp.Proofs.Retry.Course
import WalletTopUp.Proofs.Underway

/-!
# When a loop calls

The ends of the calls decide a loop that tries again: the first call that succeeds, whose error is not worth another
call, or that is the last one allowed is the last one that is made. Before it the loop has made all earlier calls, each
followed by its wait and nothing else (`course`). So a call is made when the pauses before it are over, and a pause is
over after the time that was asked for, unless that is longer than any pause can be (`retry_timed`).
-/

namespace WalletTopUp.Retry
variable {ε α : Type} {policy : RetryPolicy} {worthIt : ε → Bool} {outcome : Nat → Except ε α}
  {history : (interface ε α).History} {r : Except ε α} {clock made made' attempt : Nat} {drawn : Fin 1000}

/-! ## The calls and their ends -/

/-- The calls that are made after `made` others end as they are bound to. -/
def Serves (outcome : Nat → Except ε α) (made : Nat) (entry : (interface ε α).Entry) (made' : Nat) : Prop :=
  match entry with
  | ⟨.call, answer⟩ => answer = outcome made ∧ made' = made + 1
  | ⟨.pause _, _⟩ | ⟨.draw, _⟩ => made' = made

theorem exists_serves (outcome : Nat → Except ε α) (made : Nat) (q : Question) :
    ∃ answer made', Serves outcome made ⟨q, answer⟩ made' := by
  cases q with
  | call => exact ⟨outcome made, made + 1, rfl, rfl⟩
  | pause millis => exact ⟨(), made, rfl⟩
  | draw => exact ⟨RetryPolicy.noDraw, made, rfl⟩

/-- After this end there is nothing to try again for. -/
def Final (worthIt : ε → Bool) (end' : Except ε α) : Prop := ∀ e, end' = .error e → worthIt e = false

/-! ## What a history shows -/

def pauses : (interface ε α).History → List Nat
  | [] => []
  | ⟨.pause millis, _⟩ :: rest => millis :: pauses rest
  | ⟨.call, _⟩ :: rest | ⟨.draw, _⟩ :: rest => pauses rest

/-- When the calls of a history are made that begins at a time. -/
def callTimes (clock : Nat) : (interface ε α).History → List Nat
  | [] => []
  | ⟨.call, _⟩ :: rest => clock :: callTimes clock rest
  | ⟨.pause millis, _⟩ :: rest => callTimes (clock + pauseLength millis) rest
  | ⟨.draw, _⟩ :: rest => callTimes clock rest

/-- The entries of a loop from call number `first` on, with a wait for each of the random numbers. -/
def course (policy : RetryPolicy) (outcome : Nat → Except ε α) :
    (first : Nat) → (draws : List (Fin 1000)) → (interface ε α).History
  | first, [] => [⟨.call, outcome first⟩]
  | first, drawn :: draws =>
    ⟨.call, outcome first⟩ :: (waiting policy first drawn ++ course policy outcome (first + 1) draws)

/-! ## One wait -/

@[simp] theorem served_waiting_iff {rest : (interface ε α).History} :
    Served (Serves outcome) made (waiting policy attempt drawn ++ rest) made' ↔
      Served (Serves outcome) made rest made' := by
  unfold waiting
  split_ifs <;> simp [Serves]

@[simp] theorem pauses_waiting {rest : (interface ε α).History} :
    pauses (waiting policy attempt drawn ++ rest) = policy.backoff attempt drawn :: pauses rest := by
  unfold waiting
  split_ifs <;> rfl

@[simp] theorem callTimes_waiting {rest : (interface ε α).History} :
    callTimes clock (waiting policy attempt drawn ++ rest) =
      callTimes (clock + pauseLength (policy.backoff attempt drawn)) rest := by
  unfold waiting
  split_ifs <;> rfl

/-! ## All calls -/

/-- What the ends of the calls make of a loop that has made `first` calls and has `left` retries left. -/
theorem exists_course_of_yields {first left : Nat} (hfirst : first + left = policy.maxRetries)
    (h : (attempts policy worthIt left).Yields history r) (hserved : Served (Serves outcome) first history made) :
    ∃ draws : List (Fin 1000), draws.length ≤ left ∧ history = course policy outcome first draws ∧
      r = outcome (first + draws.length) ∧ (Final worthIt (outcome (first + draws.length)) ∨ draws.length = left) ∧
        ∀ k, first ≤ k → k < first + draws.length → ¬ Final worthIt (outcome k) := by
  induction left generalizing first history with
  | zero =>
    obtain rfl := Program.yields_perform_iff.mp h
    obtain ⟨_, ⟨rfl, -⟩, -⟩ := served_cons_iff.mp hserved
    exact ⟨[], Nat.le_refl _, rfl, rfl, .inr rfl, fun k hk hlt => absurd hlt (Nat.not_lt.mpr hk)⟩
  | succ left ih =>
    obtain ⟨end', rest, rfl, hrest⟩ := Program.yields_perform_bind_iff.mp h
    obtain ⟨_, ⟨hend, rfl⟩, hnext⟩ := served_cons_iff.mp hserved
    by_cases hfinal : Final worthIt (outcome first)
    · -- after a success or a refused error nothing follows
      have hstop : rest = [] ∧ r = end' := by
        rcases end' with e | a
        · simp only [hfinal e hend.symm] at hrest
          exact Program.yields_finish_iff.mp hrest
        · exact Program.yields_finish_iff.mp hrest
      obtain ⟨rfl, rfl⟩ := hstop
      rw [hend]
      exact ⟨[], Nat.zero_le _, rfl, rfl, .inl hfinal, fun k hk hlt => absurd hlt (Nat.not_lt.mpr hk)⟩
    · obtain ⟨e, hfailed, hworth⟩ : ∃ e, outcome first = .error e ∧ worthIt e = true := by
        simpa [Final] using hfinal
      obtain rfl : end' = .error e := hend.trans hfailed
      simp only [hworth, if_true] at hrest
      obtain ⟨waited, again, ⟨⟩, rfl, hwaited, hagain⟩ := Program.yields_bind_iff.mp hrest
      rw [show policy.maxRetries - (left + 1) = first by omega] at hwaited
      obtain ⟨drawn, rfl⟩ := exists_waiting_of_yields hwaited
      obtain ⟨draws, hle, rfl, rfl, hstop, hgoing⟩ := ih (by omega) hagain (served_waiting_iff.mp hnext)
      have hlength : first + (drawn :: draws).length = first + 1 + draws.length := by
        rw [List.length_cons]
        omega
      refine ⟨drawn :: draws, Nat.succ_le_succ hle, ?_, ?_, ?_, fun k hk hlt => ?_⟩
      · rw [course, hfailed]
      · rw [hlength]
      · rw [hlength]
        exact hstop.imp_right (congrArg Nat.succ)
      · rcases Nat.eq_or_lt_of_le hk with rfl | hk
        · exact hfinal
        · exact hgoing k hk (hlength ▸ hlt)

section
variable (first : Nat) (draws : List (Fin 1000))

theorem answers_course :
    answers (course policy outcome first draws) = (List.range' first (draws.length + 1)).map outcome := by
  induction draws generalizing first with
  | nil => rfl
  | cons drawn draws ih =>
    rw [course, List.length_cons, List.range'_succ, List.map_cons, ← ih (first + 1)]
    exact congrArg (List.cons _) answers_waiting

theorem pauses_course :
    pauses (course policy outcome first draws) = (draws.zipIdx first).map fun (drawn, k) => policy.backoff k drawn := by
  induction draws generalizing first with
  | nil => rfl
  | cons drawn draws ih =>
    rw [course, pauses, pauses_waiting, ih, List.zipIdx_cons, List.map_cons]

theorem callTimes_course :
    callTimes clock (course policy outcome first draws) =
      ((pauses (course policy outcome first draws)).map pauseLength).scanl (· + ·) clock := by
  induction draws generalizing first clock with
  | nil => rfl
  | cons drawn draws ih =>
    rw [course, callTimes, callTimes_waiting, ih, pauses, pauses_waiting, List.map_cons, List.scanl_cons]

end

/-- **A loop ends with the first call that settles it.** Whatever the ends of the calls are bound to be, a call settles
the loop that succeeds, whose error is not worth another call, or before which all retries are used up, and the first
such call has a number `n` that is at most the number of retries. The loop comes to an end; and however it goes, its
calls are those with the numbers from zero to `n`, its result is the end of the last of them, and between a call and the
next one it asks for just the pause that the policy gives for their number. Each call is made when all pauses before it
are over: at the sum of their lengths. -/
theorem retry_timed (policy : RetryPolicy) (worthIt : ε → Bool) (outcome : Nat → Except ε α) :
    ∃ n, IsLeast {k | Final worthIt (outcome k) ∨ k = policy.maxRetries} n ∧ n ≤ policy.maxRetries ∧
      (∃ history r made, (retry policy worthIt).Yields history r ∧ Served (Serves outcome) 0 history made) ∧
      ∀ history r made, (retry policy worthIt).Yields history r → Served (Serves outcome) 0 history made →
        r = outcome n ∧ answers history = (List.range (n + 1)).map outcome ∧
          ∃ draws : List (Fin 1000), draws.length = n ∧ history = course policy outcome 0 draws ∧
            pauses history = draws.mapIdx policy.backoff ∧
            callTimes 0 history = ((draws.mapIdx policy.backoff).map pauseLength).scanl (· + ·) 0 := by
  have hcourse : ∀ history r made, (retry policy worthIt).Yields history r →
      Served (Serves outcome) 0 history made → ∃ draws : List (Fin 1000), history = course policy outcome 0 draws ∧
        r = outcome draws.length ∧
          IsLeast {k | Final worthIt (outcome k) ∨ k = policy.maxRetries} draws.length := by
    intro history r made h hserved
    obtain ⟨draws, hle, hhistory, hr, hstop, hgoing⟩ := exists_course_of_yields (Nat.zero_add _) h hserved
    rw [Nat.zero_add] at hr hstop hgoing
    refine ⟨draws, hhistory, hr, hstop, ?_⟩
    rintro k (hfinal | rfl)
    · exact Nat.not_lt.mp fun hlt => hgoing k (Nat.zero_le k) hlt hfinal
    · exact hle
  obtain ⟨history, r, made, h, hserved⟩ := Program.exists_served (exists_serves outcome) (retry policy worthIt) 0
  obtain ⟨draws, -, -, hleast⟩ := hcourse history r made h hserved
  refine ⟨draws.length, hleast, hleast.2 (.inr rfl), ⟨history, r, made, h, hserved⟩, ?_⟩
  intro history r made h hserved
  obtain ⟨draws', rfl, rfl, hleast'⟩ := hcourse history r made h hserved
  have hlength : draws'.length = draws.length := hleast'.unique hleast
  have hpauses : pauses (course policy outcome 0 draws') = draws'.mapIdx policy.backoff := by
    rw [pauses_course, List.mapIdx_eq_zipIdx_map]
  refine ⟨by rw [hlength], ?_, draws', hlength, rfl, hpauses, ?_⟩
  · rw [answers_course, hlength, List.range_eq_range']
  · rw [callTimes_course, hpauses]

/-! A pause that is longer than any can be is cut short, and the next call comes before the time that was asked for. -/

namespace Sample

/-- One retry, after thirty years and a millisecond. -/
def patient : RetryPolicy :=
  let pauseNanos := (longestPause + 1) * RetryPolicy.nanosPerMilli
  ⟨1, pauseNanos, pauseNanos, .ofNat 1, false⟩

def failsOnce : Nat → Except Unit Unit
  | 0 => .error ()
  | _ + 1 => .ok ()

theorem call_before_pause_asked :
    ∃ history, (retry patient fun _ => true).Yields history (.ok ()) ∧ Served (Serves failsOnce) 0 history 2 ∧
      pauses history = [patient.backoff 0 RetryPolicy.noDraw] ∧ callTimes 0 history = [0, longestPause] ∧
        callTimes 0 history ≠ (pauses history).scanl (· + ·) 0 := by
  refine ⟨course patient failsOnce 0 [RetryPolicy.noDraw], .ask (.ask (.ask (.finish _))), ?_, ?_, ?_, ?_⟩
  · exact .cons ⟨rfl, rfl⟩ (.cons rfl (.cons ⟨rfl, rfl⟩ (.nil 2)))
  all_goals decide +kernel

end Sample

end WalletTopUp.Retry
