import WalletTopUp.Proofs.History
import WalletTopUp.SideEffect

/-!
# The course of the side effects

Whatever the cache and the stream answer, every task after a top-up is tried. Each entry that has to go is asked
to go, and the event of the transaction is sent at least once, always as the same event (`Followed`).
-/

namespace WalletTopUp

namespace Retry
variable {ε α : Type} {policy : RetryPolicy} {worthIt : ε → Bool} {left : Nat}
  {history : (interface ε α).History} {r : Except ε α}

theorem attempts_begin (h : (attempts policy worthIt left).Yields history r) :
    ∃ answer rest, history = ⟨.call, answer⟩ :: rest := by
  cases left with
  | zero =>
    obtain rfl := Program.yields_perform_iff.mp h
    exact ⟨r, [], rfl⟩
  | succ left =>
    obtain ⟨answer, rest, rfl, -⟩ := Program.yields_perform_bind_iff.mp h
    exact ⟨answer, rest, rfl⟩

end Retry

namespace SideEffect
variable {p : Publisher} {username : String} {t : Transaction} {history : SideEffect.History}

/-! ## Tasks -/

def Drop.question : Drop → Question
  | .pattern prefixed => .deletePattern prefixed
  | .key name => .deleteKey name

theorem eq_of_yields_runDrop {d : Drop} {r : Outcome} (h : (runDrop d).Yields history r) :
    ∃ answer, history = [⟨d.question, answer⟩] := by
  rcases d with pattern | key <;>
  · obtain ⟨reason | found, rest, rfl, hrest⟩ := Program.yields_perform_bind_iff.mp h
    · obtain ⟨rfl, -⟩ := Program.yields_finish_iff.mp hrest
      exact ⟨.error reason, rfl⟩
    · obtain ⟨rfl, -⟩ := Program.yields_finish_iff.mp hrest
      exact ⟨.ok found, rfl⟩

theorem eq_of_sent {q : Retry.Question} {part : SideEffect.History}
    {answer : (Retry.interface String Delivery).Answer q} (h : (sendingStep p t q).Yields part answer) {event : Event}
    {delivered : Except String Delivery} (hmem : ⟨.send event, delivered⟩ ∈ part) : event = t.event p.topic := by
  cases q with
  | call =>
    obtain rfl := Program.yields_perform_iff.mp h
    cases List.mem_singleton.mp hmem
    rfl
  | pause millis =>
    obtain rfl := Program.yields_perform_iff.mp h
    cases List.mem_singleton.mp hmem
  | draw =>
    obtain rfl := Program.yields_perform_iff.mp h
    cases List.mem_singleton.mp hmem

/-- Publishing begins with a sending and sends nothing else. -/
theorem sends_of_yields_publish {r : Except String Delivery} (h : (publish p t).Yields history r) :
    (∃ answer, ⟨.send (t.event p.topic), answer⟩ ∈ history) ∧
      ∀ event answer, ⟨.send event, answer⟩ ∈ history → event = t.event p.topic := by
  obtain ⟨first, rest, result, rfl, hfirst, hrest⟩ := Program.yields_bind_iff.mp h
  obtain ⟨⟨⟩, _, rfl, hend⟩ := Program.yields_perform_bind_iff.mp hrest
  obtain ⟨rfl, rfl⟩ := Program.yields_finish_iff.mp hend
  obtain ⟨asked, hasked, hinterpreted⟩ := Program.interpreted_of_yields hfirst
  constructor
  · obtain ⟨answer, asked, rfl⟩ := Retry.attempts_begin hasked
    cases hinterpreted with
    | cons hcall hrest =>
      obtain rfl := Program.yields_perform_iff.mp hcall
      exact ⟨answer, List.mem_cons_self⟩
  · intro event answer hmem
    rcases List.mem_append.mp hmem with hmem | hmem
    · obtain ⟨q, a, part, hpart, hmem⟩ := hinterpreted.exists_entry_of_mem hmem
      exact eq_of_sent hpart hmem
    · cases List.mem_singleton.mp hmem

/-! ## All tasks -/

/-- What the tasks after a top-up do whatever is answered. -/
structure Followed (p : Publisher) (username : String) (t : Transaction) (history : SideEffect.History) : Prop where
  dropped : ∀ d ∈ sharedDrops ++ userDrops username, ∃ answer, ⟨d.question, answer⟩ ∈ history
  sent : ∃ answer, ⟨.send (t.event p.topic), answer⟩ ∈ history
  sends : ∀ event answer, ⟨.send event, answer⟩ ∈ history → event = t.event p.topic

theorem followed_of_yields {report : Report} (h : (afterTopUp p username t).Yields history report) :
    Followed p username t history := by
  obtain ⟨first, rest, outcomes, rfl, hfirst, hrest⟩ := Program.yields_bind_iff.mp h
  obtain ⟨⟨⟩, _, rfl, hend⟩ := Program.yields_perform_bind_iff.mp hrest
  obtain ⟨rfl, -⟩ := Program.yields_finish_iff.mp hend
  constructor
  case dropped =>
    intro d hd
    have htask : Task.drop d ∈ tasks username := List.mem_append_left _ (List.mem_map_of_mem hd)
    obtain ⟨part, outcome, hpart, hsub⟩ := Program.exists_part_of_yields_mapM hfirst htask
    obtain ⟨answer, rfl⟩ := eq_of_yields_runDrop hpart
    exact ⟨answer, List.mem_append_left _ (hsub (List.mem_singleton_self _))⟩
  case sent =>
    have htask : Task.announce ∈ tasks username := List.mem_append_right _ (List.mem_singleton_self _)
    obtain ⟨part, outcome, hpart, hsub⟩ := Program.exists_part_of_yields_mapM hfirst htask
    obtain ⟨published, _, r, rfl, hpublished, -⟩ := Program.yields_bind_iff.mp hpart
    obtain ⟨answer, hmem⟩ := (sends_of_yields_publish hpublished).1
    exact ⟨answer, List.mem_append_left _ (hsub (List.mem_append_left _ hmem))⟩
  case sends =>
    intro event answer hmem
    rcases List.mem_append.mp hmem with hmem | hmem
    · obtain ⟨task, -, part, outcome, hpart, hmem⟩ := Program.exists_item_of_yields_mapM hfirst hmem
      rcases task with d | _
      · obtain ⟨answer', rfl⟩ := eq_of_yields_runDrop hpart
        rcases d with pattern | key <;> cases List.mem_singleton.mp hmem
      · obtain ⟨published, _, r, rfl, hpublished, hrest⟩ := Program.yields_bind_iff.mp hpart
        obtain ⟨rfl, -⟩ := Program.yields_finish_iff.mp hrest
        rw [List.append_nil] at hmem
        exact (sends_of_yields_publish hpublished).2 event answer hmem
    · cases List.mem_singleton.mp hmem

end SideEffect

end WalletTopUp
