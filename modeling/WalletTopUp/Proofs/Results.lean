/-!
# Results

A reader or a check succeeds with something or fails with a fault. Here is what a success, or a fault, of steps taken
one after the other tells of the steps.
-/

namespace WalletTopUp

section
variable {α β γ ε : Type} {result : Except ε α} {a : α} {b : β} {fault : ε}

/-! ## Successes -/

theorem exists_of_map_ok {f : α → β} (h : result.map f = .ok b) : ∃ a, result = .ok a ∧ f a = b := by
  cases result with
  | error failure => cases h
  | ok a => exact ⟨a, rfl, Except.ok.inj h⟩

theorem exists_of_bind_ok {f : α → Except ε β} (h : result.bind f = .ok b) : ∃ a, result = .ok a ∧ f a = .ok b := by
  cases result with
  | error failure => cases h
  | ok a => exact ⟨a, rfl, h⟩

theorem mapError_eq_ok_iff {φ : Type} {f : ε → φ} {a : α} : result.mapError f = .ok a ↔ result = .ok a := by
  cases result with
  | ok a' => exact ⟨fun h => congrArg _ (Except.ok.inj h), fun h => congrArg _ (Except.ok.inj h)⟩
  | error failure => exact ⟨nofun, nofun⟩

theorem eq_ok_of_toOption (h : result.toOption = some a) : result = .ok a := by
  cases result with
  | ok a' => rw [Option.some.inj h]
  | error fault => cases h

/-! ## Faults -/

/-- What is wrong, if anything is. -/
def fault? : Except ε α → Option ε
  | .ok _ => none
  | .error fault => some fault

theorem fault?_eq_none_iff : fault? result = none ↔ ∃ a, result = .ok a := by
  cases result with
  | ok a => exact ⟨fun _ => ⟨a, rfl⟩, fun _ => rfl⟩
  | error fault => exact ⟨nofun, nofun⟩

theorem fault?_eq_some_iff : fault? result = some fault ↔ result = .error fault := by
  cases result with
  | ok a => exact ⟨nofun, nofun⟩
  | error fault => exact ⟨fun h => congrArg _ (Option.some.inj h), fun h => congrArg _ (Except.error.inj h)⟩

theorem fault?_map (f : α → β) (result : Except ε α) : fault? (result.map f) = fault? result := by
  cases result <;> rfl

theorem fault?_bind {f : α → Except ε β} {check : γ → Option ε} {c : γ} {cs : List γ} (h : check c = fault? result)
    (hnext : ∀ a, fault? (f a) = cs.findSome? check) : fault? (result.bind f) = (c :: cs).findSome? check := by
  rw [List.findSome?_cons, h]
  cases result with
  | ok a => exact hnext a
  | error fault => rfl

end

end WalletTopUp
