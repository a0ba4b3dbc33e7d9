import WalletTopUp.Proofs.Json.Canonical
import WalletTopUp.Subject.Claims

/-!
# The moment of an expiry

A number of a token stands for a moment when it is not negative and, rounded to a whole second, fits a word of 64 bits
(`moment?_eq_some_iff`). This holds of every number that a literal stands for (`Json.Literal.value?_canonical`).
-/

namespace WalletTopUp

namespace Json

/-- The rational number that a number is, if it is finite. -/
def Number.rational? : Number → Option ℚ
  | integer n => some n
  | float x => x.value?

end Json

namespace Subject

open Json

section
variable {e : Nat}

theorem moment?_integer {n : Int} (hn : n < 2 ^ 64) :
    moment? (.number (.integer n)) = some e ↔ 0 ≤ n ∧ n = e ∧ e < 2 ^ 64 := by
  rw [moment?]
  by_cases hnonneg : 0 ≤ n
  · rw [if_pos hnonneg, Option.some_inj]
    omega
  · rw [if_neg hnonneg]
    simp [hnonneg]

theorem moment?_finite {m g : Nat} {negative : Bool} (hm : m < 2 ^ 53) :
    moment? (.number (.float (.finite negative m g))) = some e ↔
      (negative = false ∨ m = 0) ∧ Binary64.nearest (Binary64.units m g) = e ∧ e < 2 ^ 64 := by
  by_cases hnonneg : negative = false ∨ m = 0
  · have hsign : ¬ (negative && m != 0) = true := by
      rcases hnonneg with rfl | rfl <;> simp
    rw [moment?, if_neg hsign, Binary64.truncate?_roundAway hm hnonneg g]
    simp only [Option.ite_none_right_eq_some, Option.some.injEq, hnonneg, true_and]
    constructor
    · rintro ⟨hlt, rfl⟩
      exact ⟨rfl, hlt⟩
    · rintro ⟨rfl, hlt⟩
      exact ⟨hlt, rfl⟩
  · have hsign : (negative && m != 0) = true := by
      rw [not_or, Bool.not_eq_false] at hnonneg
      simpa using hnonneg
    rw [moment?, if_pos hsign]
    simp [hnonneg]

theorem value_nonneg_iff {m g : Nat} {negative : Bool} :
    0 ≤ (Binary64.signedUnits negative m g : ℚ) / Binary64.unitsPerOne ↔ negative = false ∨ m = 0 := by
  have hpos : (0 : ℚ) < Binary64.unitsPerOne := by exact_mod_cast Binary64.unitsPerOne_pos
  have hunits : 0 < Binary64.units m g ↔ m ≠ 0 := by
    rw [Binary64.units_eq, Nat.mul_pos_iff_of_pos_right (Nat.two_pow_pos g)]
    exact Nat.pos_iff_ne_zero
  rw [le_div_iff₀ hpos, zero_mul, Int.cast_nonneg_iff]
  cases negative with
  | false => simp [Binary64.signedUnits]
  | true =>
    simp only [Binary64.signedUnits, if_true, Bool.true_eq_false, false_or]
    omega

theorem moment?_eq_some_iff {x : Number} (hx : x.Canonical) :
    moment? (.number x) = some e ↔ ∃ q, x.rational? = some q ∧ 0 ≤ q ∧ round q = e ∧ e < 2 ^ 64 := by
  cases x with
  | integer n =>
    rw [moment?_integer hx]
    simp [Number.rational?]
  | float x =>
    cases x with
    | finite negative m g =>
      rw [moment?_finite hx]
      simp only [Number.rational?, Binary64.value?, Option.some.injEq, exists_eq_left', value_nonneg_iff]
      apply and_congr_right
      intro hnonneg
      have hvalue : (Binary64.signedUnits negative m g : ℚ) = (Binary64.units m g : ℕ) := by
        rcases hnonneg with rfl | rfl
        · simp [Binary64.signedUnits]
        · simp [Binary64.signedUnits, Binary64.units]
      rw [hvalue, round_div_unitsPerOne, Nat.cast_inj]
    | _ => simp [moment?, Number.rational?, Binary64.value?]

end

end Subject

end WalletTopUp
