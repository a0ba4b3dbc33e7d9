import Mathlib.Algebra.Order.Field.Basic
import Mathlib.Algebra.Order.Ring.Rat
import Mathlib.Tactic.Linarith
import Mathlib.Tactic.Ring
import Mathlib.Tactic.FieldSimp
import WalletTopUp.Money.Decimal
import WalletTopUp.Proofs.Number.Binary64

/-!
# Differences of amounts

A difference is taken at the larger scale and then gives up places until it fits. What is left is the exact
difference whenever the exact difference is an amount at all (`value_sub?_iff`), and otherwise the nearest
number of its scale (`sub?_near`). Taking a positive amount off a balance that covers it always works, and what
is left lies between nothing and the balance (`exists_sub?_of_le`): the balance itself is a number of the scale
at which the difference is rounded, and rounding never passes a number of its scale.

Everything is counted in units of `10^-28`, where all amounts are integers; `Decimal.value` is the amount as a
rational number.
-/

namespace WalletTopUp

namespace Decimal

/-! ## Rounding a quotient -/

theorem units_eq (a : Decimal) : a.units = a.coefficient * 10 ^ (maxScale - a.scale) :=
  rfl

theorem fit?_eq (c : Int) (s : Nat) : fit? c s = (List.range (s + 1)).findSome? fun k =>
    of? (divideToEven c (10 ^ k)) (s - k) :=
  rfl

theorem divideToEven_near (n : Int) {den : Nat} (hd : 0 < den) :
    2 * (divideToEven n den * den) ≤ 2 * n + den ∧ 2 * n ≤ 2 * (divideToEven n den * den) + den := by
  obtain ⟨hhigh, hlow⟩ := Binary64.divideToEven_near n.natAbs hd
  unfold divideToEven
  dsimp only
  generalize Binary64.divideToEven n.natAbs den = q at hhigh hlow
  split_ifs
  · rw [Int.neg_mul, ← Int.natCast_mul]; omega
  · rw [← Int.natCast_mul]; omega

theorem divideToEven_le {n q : Int} {den : Nat} (hd : 0 < den) (h : n ≤ q * den) :
    divideToEven n den ≤ q := by
  have hnear := (divideToEven_near n hd).1
  have hden : (0 : Int) < den := by exact_mod_cast hd
  by_contra hlt
  have hstep : (q + 1) * den ≤ divideToEven n den * den :=
    Int.mul_le_mul_of_nonneg_right (by omega) hden.le
  have : (q + 1) * den = q * den + den := by ring
  omega

theorem le_divideToEven {n q : Int} {den : Nat} (hd : 0 < den) (h : q * den ≤ n) :
    q ≤ divideToEven n den := by
  have hnear := (divideToEven_near n hd).2
  have hden : (0 : Int) < den := by exact_mod_cast hd
  by_contra hlt
  have hstep : divideToEven n den * den ≤ (q - 1) * den :=
    Int.mul_le_mul_of_nonneg_right (by omega) hden.le
  have : (q - 1) * den = q * den - den := by ring
  omega

theorem divideToEven_mul (q : Int) {den : Nat} (hd : 0 < den) : divideToEven (q * den) den = q :=
  le_antisymm (divideToEven_le hd le_rfl) (le_divideToEven hd le_rfl)

/-! ## Fitting a coefficient -/

theorem of?_eq_some {c : Int} {s : Nat} {d : Decimal} (h : of? c s = some d) :
    d.coefficient = c ∧ d.scale = s := by
  unfold of? ofParts? at h
  split at h
  · cases h
    refine ⟨?_, rfl⟩
    by_cases hneg : c < 0
    · simp only [coefficient, hneg, decide_true, if_true]
      omega
    · simp only [coefficient, hneg, decide_false, Bool.false_eq_true, if_false]
      omega
  · cases h

theorem isSome_of? {c : Int} {s : Nat} (hs : s ≤ maxScale) : (of? c s).isSome ↔ c.natAbs < limit := by
  simp [of?, ofParts?, hs]

theorem natAbs_coefficient (d : Decimal) : d.coefficient.natAbs = d.magnitude := by
  unfold coefficient
  split_ifs <;> simp

theorem findSome?_range_eq_some {f : Nat → Option Decimal} {n : Nat} {d : Decimal}
    (h : (List.range n).findSome? f = some d) : ∃ k < n, f k = some d ∧ ∀ j < k, f j = none := by
  induction n with
  | zero => simp at h
  | succ n ih =>
    rw [List.range_succ, List.findSome?_append, Option.or_eq_some_iff] at h
    rcases h with h | ⟨hnone, h⟩
    · obtain ⟨k, hk, hd, hbefore⟩ := ih h
      exact ⟨k, by omega, hd, hbefore⟩
    · rw [List.findSome?_eq_none_iff] at hnone
      exact ⟨n, by omega, by simpa using h, fun j hj => hnone j (List.mem_range.mpr hj)⟩

/-- The coefficient that is kept is the one with the fewest places given up. -/
theorem fit?_eq_some {c : Int} {s : Nat} {d : Decimal} (hs : s ≤ maxScale) (h : fit? c s = some d) :
    ∃ k, d.scale + k = s ∧ d.coefficient = divideToEven c (10 ^ k) ∧
      ∀ j < k, limit ≤ (divideToEven c (10 ^ j)).natAbs := by
  rw [fit?_eq] at h
  obtain ⟨k, hk, hd, hbefore⟩ := findSome?_range_eq_some h
  obtain ⟨hcoefficient, hscale⟩ := of?_eq_some hd
  refine ⟨k, by omega, hcoefficient, fun j hj => ?_⟩
  have hnone : ¬ (of? (divideToEven c (10 ^ j)) (s - j)).isSome := by simp [hbefore j hj]
  rwa [isSome_of? (by omega), not_lt] at hnone

theorem exists_fit? {c : Int} {s k : Nat} (hs : s ≤ maxScale) (hk : k ≤ s)
    (h : (divideToEven c (10 ^ k)).natAbs < limit) : ∃ d, fit? c s = some d := by
  rw [← Option.isSome_iff_exists, fit?_eq, List.findSome?_isSome_iff]
  exact ⟨k, by simp; omega, (isSome_of? (by omega)).mpr h⟩

theorem units_of_scale_add {d : Decimal} {s k : Nat} (hs : s ≤ maxScale) (hk : d.scale + k = s) :
    d.units = d.coefficient * 10 ^ k * 10 ^ (maxScale - s) := by
  rw [units_eq, mul_assoc, ← pow_add]
  congr 2
  omega

/-- What is kept is off by at most half a unit of its last place. -/
theorem fit?_near {c : Int} {s : Nat} {d : Decimal} (hs : s ≤ maxScale) (h : fit? c s = some d) :
    2 * d.units ≤ 2 * (c * 10 ^ (maxScale - s)) + 10 ^ (maxScale - d.scale) ∧
      2 * (c * 10 ^ (maxScale - s)) ≤ 2 * d.units + 10 ^ (maxScale - d.scale) := by
  obtain ⟨k, hk, hcoefficient, -⟩ := fit?_eq_some hs h
  obtain ⟨hhigh, hlow⟩ := divideToEven_near c (Nat.pow_pos (n := k) (show 0 < 10 by decide))
  have hunit : (10 : Int) ^ (maxScale - d.scale) = 10 ^ k * 10 ^ (maxScale - s) := by
    rw [← pow_add]
    congr 1
    omega
  have hpos : (0 : Int) ≤ 10 ^ (maxScale - s) := by positivity
  rw [units_of_scale_add hs hk, hcoefficient, hunit]
  push_cast at hhigh hlow
  have hhigh' := Int.mul_le_mul_of_nonneg_right hhigh hpos
  have hlow' := Int.mul_le_mul_of_nonneg_right hlow hpos
  constructor <;> linarith

/-- A coefficient that stands for an amount is a short one times a power of ten. -/
theorem exists_short_of_units_eq {e : Decimal} {c : Int} {s : Nat} (hs : s ≤ maxScale)
    (h : e.units = c * 10 ^ (maxScale - s)) :
    ∃ (k : Nat) (q : Int), k ≤ s ∧ c = q * 10 ^ k ∧ q.natAbs < limit := by
  have hpos : (10 : Int) ^ (maxScale - s) ≠ 0 := by positivity
  have hmagnitude := e.magnitude_lt
  rw [← natAbs_coefficient] at hmagnitude
  rcases Nat.le_total e.scale s with hle | hle
  · refine ⟨s - e.scale, e.coefficient, Nat.sub_le _ _, ?_, hmagnitude⟩
    rw [units_of_scale_add hs (show e.scale + (s - e.scale) = s by omega)] at h
    exact (mul_right_cancel₀ hpos h).symm
  · refine ⟨0, c, Nat.zero_le _, by simp, lt_of_le_of_lt ?_ hmagnitude⟩
    have hscale := e.scale_le
    have hsplit : (10 : Int) ^ (maxScale - s) = 10 ^ (e.scale - s) * 10 ^ (maxScale - e.scale) := by
      rw [← pow_add]
      congr 1
      omega
    have hcoefficient : e.coefficient = c * 10 ^ (e.scale - s) := by
      rw [units_eq, hsplit, ← mul_assoc] at h
      exact mul_right_cancel₀ (by positivity) h
    rw [hcoefficient, Int.natAbs_mul]
    exact Nat.le_mul_of_pos_right _ (Int.natAbs_pos.mpr (by positivity))

theorem exists_fit?_of_units_eq {e : Decimal} {c : Int} {s : Nat} (hs : s ≤ maxScale)
    (h : e.units = c * 10 ^ (maxScale - s)) :
    ∃ d, fit? c s = some d ∧ d.units = c * 10 ^ (maxScale - s) := by
  obtain ⟨short, q, hshort, rfl, hq⟩ := exists_short_of_units_eq hs h
  have hround : divideToEven (q * 10 ^ short) (10 ^ short) = q := by
    simpa using divideToEven_mul q (Nat.pow_pos (n := short) (show 0 < 10 by decide))
  obtain ⟨d, hd⟩ := exists_fit? hs hshort (by rwa [hround])
  refine ⟨d, hd, ?_⟩
  obtain ⟨k, hk, hcoefficient, hbefore⟩ := fit?_eq_some hs hd
  -- no more places are given up than the zeros at the end
  have hle : k ≤ short := by
    by_contra hlt
    have := hbefore short (by omega)
    rw [hround] at this
    omega
  have hsplit : q * (10 : Int) ^ short = q * 10 ^ (short - k) * 10 ^ k := by
    rw [mul_assoc, ← pow_add, Nat.sub_add_cancel hle]
  have hkept : divideToEven (q * 10 ^ short) (10 ^ k) = q * 10 ^ (short - k) := by
    rw [hsplit]
    simpa using divideToEven_mul (q * 10 ^ (short - k)) (Nat.pow_pos (n := k) (show 0 < 10 by decide))
  rw [units_of_scale_add hs hk, hcoefficient, hkept, ← hsplit]

/-- A coefficient from zero up to a number that fits can be kept, and does not come out above that number: it is
rounded at a scale of which that is a number. -/
theorem exists_fit?_of_le {c q : Int} {s steps : Nat} (hs : s ≤ maxScale) (hsteps : steps ≤ s)
    (hlow : 0 ≤ c) (hhigh : c ≤ q * 10 ^ steps) (hq : q.natAbs < limit) :
    ∃ d, fit? c s = some d ∧ 0 ≤ d.units ∧ d.units ≤ q * 10 ^ steps * 10 ^ (maxScale - s) := by
  have hnonneg : ∀ n, 0 ≤ divideToEven c (10 ^ n) := fun n =>
    le_divideToEven (by positivity) (by simpa using hlow)
  have hround : divideToEven c (10 ^ steps) ≤ q :=
    divideToEven_le (by positivity) (by simpa using hhigh)
  have := hnonneg steps
  obtain ⟨d, hd⟩ := exists_fit? hs hsteps (show (divideToEven c (10 ^ steps)).natAbs < limit by omega)
  obtain ⟨k, hk, hcoefficient, hbefore⟩ := fit?_eq_some hs hd
  have hle : k ≤ steps := by
    by_contra hlt
    have := hbefore steps (by omega)
    omega
  have hsplit : q * (10 : Int) ^ steps = q * 10 ^ (steps - k) * 10 ^ k := by
    rw [mul_assoc, ← pow_add, Nat.sub_add_cancel hle]
  have hkept : divideToEven c (10 ^ k) ≤ q * 10 ^ (steps - k) :=
    divideToEven_le (by positivity) (by simpa [← hsplit] using hhigh)
  have hkept' := hnonneg k
  refine ⟨d, hd, ?_⟩
  rw [units_of_scale_add hs hk, hcoefficient, hsplit]
  exact ⟨by positivity, by gcongr⟩

/-! ## The difference in units -/

protected theorem not_lt {a b : Decimal} : ¬ a < b ↔ b ≤ a :=
  Int.not_lt

def gap (a b : Decimal) : Int :=
  a.coefficient * 10 ^ (Nat.max a.scale b.scale - a.scale) -
    b.coefficient * 10 ^ (Nat.max a.scale b.scale - b.scale)

theorem max_scale_le (a b : Decimal) : Nat.max a.scale b.scale ≤ maxScale :=
  Nat.max_le.mpr ⟨a.scale_le, b.scale_le⟩

theorem gap_mul (a b : Decimal) :
    a.gap b * 10 ^ (maxScale - Nat.max a.scale b.scale) = a.units - b.units := by
  have ha := Nat.add_sub_cancel' (Nat.le_max_left a.scale b.scale)
  have hb := Nat.add_sub_cancel' (Nat.le_max_right a.scale b.scale)
  rw [units_of_scale_add (max_scale_le a b) ha, units_of_scale_add (max_scale_le a b) hb, gap, sub_mul]

theorem units_eq_zero_of_isZero {a : Decimal} (h : a.isZero = true) : a.units = 0 := by
  have : a.magnitude = 0 := by simpa [isZero] using h
  simp [units_eq, coefficient, this]

theorem units_neg (a : Decimal) : a.neg.units = -a.units := by
  rw [units_eq, units_eq]
  unfold coefficient neg
  cases a.negative <;> simp

/-- Where nothing is taken away, or something from nothing, no rounding takes place. -/
theorem sub?_cases {a b : Decimal} :
    (∃ d, a.sub? b = some d ∧ d.units = a.units - b.units) ∨
      a.sub? b = fit? (a.gap b) (Nat.max a.scale b.scale) := by
  unfold sub?
  split_ifs with ha hb hb
  · exact .inl ⟨b, rfl, by simp [units_eq_zero_of_isZero ha, units_eq_zero_of_isZero hb]⟩
  · exact .inl ⟨b.neg, rfl, by simp [units_eq_zero_of_isZero ha, units_neg]⟩
  · exact .inl ⟨a, rfl, by simp [units_eq_zero_of_isZero hb]⟩
  · exact .inr rfl

theorem sub?_near {a b d : Decimal} (h : a.sub? b = some d) :
    2 * d.units ≤ 2 * (a.units - b.units) + 10 ^ (maxScale - d.scale) ∧
      2 * (a.units - b.units) ≤ 2 * d.units + 10 ^ (maxScale - d.scale) := by
  rcases sub?_cases (a := a) (b := b) with ⟨d', hd, hunits⟩ | hfit
  · obtain rfl : d = d' := by simpa [hd] using h.symm
    have : (0 : Int) ≤ 10 ^ (maxScale - d.scale) := by positivity
    omega
  · rw [← gap_mul]
    exact fit?_near (max_scale_le a b) (hfit ▸ h)

theorem exists_sub?_of_units_eq {a b e : Decimal} (h : e.units = a.units - b.units) :
    ∃ d, a.sub? b = some d ∧ d.units = a.units - b.units := by
  rcases sub?_cases (a := a) (b := b) with hexact | hfit
  · exact hexact
  · rw [← gap_mul] at h ⊢
    rw [hfit]
    exact exists_fit?_of_units_eq (max_scale_le a b) h

/-- A positive amount can be taken off a balance that covers it, and leaves between nothing and the balance. -/
theorem exists_sub?_of_le {a b : Decimal} (hb : 0 < b.units) (h : b.units ≤ a.units) :
    ∃ d, a.sub? b = some d ∧ 0 ≤ d.units ∧ d.units ≤ a.units := by
  rcases sub?_cases (a := a) (b := b) with ⟨d, hd, hunits⟩ | hfit
  · exact ⟨d, hd, by omega, by omega⟩
  · have hs := max_scale_le a b
    have hgap := gap_mul a b
    have hunits := units_of_scale_add hs (Nat.add_sub_cancel' (Nat.le_max_left a.scale b.scale))
    have hpos : (0 : Int) < 10 ^ (maxScale - Nat.max a.scale b.scale) := by positivity
    have hlow : 0 ≤ a.gap b := by
      refine le_of_mul_le_mul_right ?_ hpos
      rw [hgap, Int.zero_mul]
      omega
    have hhigh : a.gap b ≤ a.coefficient * 10 ^ (Nat.max a.scale b.scale - a.scale) := by
      refine le_of_mul_le_mul_right ?_ hpos
      rw [hgap, ← hunits]
      omega
    have hcoefficient : a.coefficient.natAbs < limit := natAbs_coefficient a ▸ a.magnitude_lt
    rw [hfit, hunits]
    exact exists_fit?_of_le hs (Nat.sub_le _ _) hlow hhigh hcoefficient

/-! ## Amounts as rational numbers -/

def value (a : Decimal) : Rat := a.coefficient / 10 ^ a.scale

/-- A rational number is an amount when it has a coefficient and a scale that fit. -/
def IsAmount (x : Rat) : Prop := ∃ d : Decimal, d.value = x

theorem value_eq (a : Decimal) : a.value = a.units / 10 ^ maxScale := by
  have hscale : (10 : Rat) ^ maxScale = 10 ^ (maxScale - a.scale) * 10 ^ a.scale := by
    rw [← pow_add, Nat.sub_add_cancel a.scale_le]
  rw [value, units_eq, hscale]
  push_cast
  field_simp

theorem value_le_iff {a b : Decimal} : a.value ≤ b.value ↔ a ≤ b := by
  rw [value_eq, value_eq, div_le_div_iff_of_pos_right (by positivity), Int.cast_le]
  rfl

theorem zero_le_iff {a : Decimal} : zero ≤ a ↔ 0 ≤ a.value := by
  have hzero : zero.value = 0 := by simp [value, coefficient, zero]
  rw [← value_le_iff, hzero]

theorem value_eq_sub_iff {a b d : Decimal} : d.value = a.value - b.value ↔ d.units = a.units - b.units := by
  rw [value_eq, value_eq, value_eq, ← sub_div, div_left_inj' (by positivity)]
  exact_mod_cast Iff.rfl

/-- A difference is exact if and only if the exact difference is an amount. -/
theorem value_sub?_iff {a b d : Decimal} (h : a.sub? b = some d) :
    d.value = a.value - b.value ↔ IsAmount (a.value - b.value) := by
  constructor
  · exact fun hd => ⟨d, hd⟩
  · rintro ⟨e, he⟩
    obtain ⟨d', hd', hunits⟩ := exists_sub?_of_units_eq (value_eq_sub_iff.mp he)
    obtain rfl : d = d' := by simpa [hd'] using h.symm
    exact value_eq_sub_iff.mpr hunits

theorem abs_value_sub?_le {a b d : Decimal} (h : a.sub? b = some d) :
    |d.value - (a.value - b.value)| ≤ 1 / (2 * 10 ^ d.scale) := by
  obtain ⟨hhigh, hlow⟩ := sub?_near h
  have hscale : (10 : Rat) ^ maxScale = 10 ^ (maxScale - d.scale) * 10 ^ d.scale := by
    rw [← pow_add, Nat.sub_add_cancel d.scale_le]
  have hbound : |(d.units - (a.units - b.units) : Rat)| ≤ 10 ^ (maxScale - d.scale) / 2 := by
    have hhigh' : (2 * d.units : Rat) ≤ 2 * (a.units - b.units) + 10 ^ (maxScale - d.scale) := by
      exact_mod_cast hhigh
    have hlow' : (2 * (a.units - b.units) : Rat) ≤ 2 * d.units + 10 ^ (maxScale - d.scale) := by
      exact_mod_cast hlow
    rw [abs_le]
    constructor <;> linarith
  have hunits : d.value - (a.value - b.value) = (d.units - (a.units - b.units)) / 10 ^ maxScale := by
    rw [value_eq, value_eq, value_eq]
    ring
  rw [hunits, abs_div, abs_of_pos (show (0 : Rat) < 10 ^ maxScale by positivity), hscale,
    div_le_div_iff₀ (by positivity) (by positivity)]
  have hpos : (0 : Rat) ≤ 2 * 10 ^ d.scale := by positivity
  calc _ ≤ 10 ^ (maxScale - d.scale) / 2 * (2 * 10 ^ d.scale : Rat) := mul_le_mul_of_nonneg_right hbound hpos
    _ = 1 * (10 ^ (maxScale - d.scale) * 10 ^ d.scale) := by ring

/-- An amount that is covered and has no more places than the balance is taken off exactly. -/
theorem isAmount_sub_of_scale_le {a b : Decimal} (hb : 0 ≤ b.units) (h : b.units ≤ a.units)
    (hscale : b.scale ≤ a.scale) : IsAmount (a.value - b.value) := by
  have hpos : (0 : Int) < 10 ^ (maxScale - a.scale) := by positivity
  have hunits := units_of_scale_add a.scale_le (Nat.add_sub_cancel' hscale)
  have hb' : 0 ≤ b.coefficient * 10 ^ (a.scale - b.scale) := by
    refine le_of_mul_le_mul_right ?_ hpos
    rwa [Int.zero_mul, ← hunits]
  have ha' : b.coefficient * 10 ^ (a.scale - b.scale) ≤ a.coefficient := by
    refine le_of_mul_le_mul_right ?_ hpos
    rwa [← hunits]
  have hlimit := a.magnitude_lt
  rw [← natAbs_coefficient] at hlimit
  have hfits : (a.coefficient - b.coefficient * 10 ^ (a.scale - b.scale)).natAbs < limit := by omega
  obtain ⟨d, hd⟩ := Option.isSome_iff_exists.mp ((isSome_of? a.scale_le).mpr hfits)
  obtain ⟨hcoefficient, hs⟩ := of?_eq_some hd
  refine ⟨d, value_eq_sub_iff.mpr ?_⟩
  rw [hunits, units_eq, hcoefficient, hs, Int.sub_mul, units_eq]

end Decimal

end WalletTopUp
