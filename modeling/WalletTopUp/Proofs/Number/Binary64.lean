import Mathlib.Algebra.Order.Round
import Mathlib.Data.Rat.Floor
import Mathlib.Tactic.FieldSimp
import Mathlib.Tactic.NormNum
import Mathlib.Tactic.Ring
import Mathlib.Tactic.SplitIfs
import WalletTopUp.Number.Binary64

/-!
# Rounding to the format and to whole numbers

The value of a floating-point number is a rational number. A quotient is rounded to the nearest natural number
(`divideToEven_near`); rounding to the format keeps 53 bits (`round_canonical`) and is exact where they are enough
(`round_exact`). So the whole number nearest to a floating-point number is found without a
second error (`truncate?_roundAway`, `round_div_unitsPerOne`).
-/

namespace WalletTopUp

namespace Binary64

/-- The rational number that a floating-point number is, if it is finite. -/
def value? : Binary64 → Option ℚ
  | finite negative significand grade => some (signedUnits negative significand grade / unitsPerOne)
  | _ => none

/-- The significand fits in 53 bits. -/
def Canonical : Binary64 → Prop
  | finite _ significand _ => significand < 2 ^ 53
  | _ => True

section
variable {n m g : Nat} {negative : Bool}

/-- Doubling one unit so many times makes one. -/
@[irreducible] def oneGrade : Nat := 1074

theorem oneGrade_eq : oneGrade = 1074 := by
  rw [oneGrade]

theorem unitsPerOne_eq : unitsPerOne = 2 ^ oneGrade := by
  have hgrade := oneGrade_eq
  unfold unitsPerOne
  -- with the number itself in the exponent the power would be computed
  generalize 1074 = k at hgrade ⊢
  rw [hgrade, Nat.pow_eq]

theorem unitsPerOne_pos : 0 < unitsPerOne := by
  rw [unitsPerOne_eq]
  exact Nat.two_pow_pos _

theorem units_eq (m g : Nat) : units m g = m * 2 ^ g := by
  rw [units, Nat.pow_eq]

theorem div_gradeOf_lt (n : Nat) : n / 2 ^ gradeOf n < 2 ^ 53 := by
  rw [Nat.div_lt_iff_lt_mul (Nat.two_pow_pos _), ← Nat.pow_add]
  have hlog : n < 2 ^ (n.log2 + 1) := Nat.lt_log2_self
  have hle : 2 ^ (n.log2 + 1) ≤ 2 ^ (53 + gradeOf n) := Nat.pow_le_pow_right (by decide) (by unfold gradeOf; omega)
  omega

theorem gradeOf_le (hm : m < 2 ^ 53) (g : Nat) : gradeOf (m * 2 ^ g) ≤ g := by
  unfold gradeOf
  by_cases hzero : m * 2 ^ g = 0
  · rw [hzero]
    exact Nat.zero_le _
  · have hlt : m * 2 ^ g < 2 ^ (53 + g) := by
      rw [Nat.pow_add]
      exact Nat.mul_lt_mul_of_pos_right hm (Nat.two_pow_pos g)
    have hlog := (Nat.log2_lt hzero).mpr hlt
    omega

/-! ## Rounding a quotient -/

/-- A rounded quotient is off by at most one half. -/
theorem divideToEven_near (num : Nat) {den : Nat} (hd : 0 < den) :
    2 * (divideToEven num den * den) ≤ 2 * num + den ∧
      2 * num ≤ 2 * (divideToEven num den * den) + den := by
  have hnum : den * (num / den) + num % den = num := Nat.div_add_mod num den
  have hr : num % den < den := Nat.mod_lt num hd
  have hlow : num / den * den = den * (num / den) := Nat.mul_comm _ _
  have hhigh : (num / den + 1) * den = den * (num / den) + den := by ring
  unfold divideToEven
  dsimp only
  split_ifs
  · rw [hlow]; omega
  · rw [hhigh]; omega
  · rw [hlow]; omega
  · rw [hhigh]; omega

theorem divideToEven_le (num den : Nat) : divideToEven num den ≤ num / den + 1 := by
  unfold divideToEven
  dsimp only
  split_ifs <;> omega

theorem divideToEven_mul {den : Nat} (q : Nat) (hden : 0 < den) : divideToEven (q * den) den = q := by
  have hzero : 2 * (q * den % den) < den := by
    rw [Nat.mul_mod_left]
    exact hden
  simp only [divideToEven, if_pos hzero]
  exact Nat.mul_div_cancel q hden

/-! ## Rounding to the format -/

/-- A significand in its grade; one of 54 bits, which is a power of two, belongs to the next grade. -/
def settle (negative : Bool) (significand grade : Nat) : Binary64 :=
  if significand = Nat.pow 2 53 then
    if 2045 < grade + 1 then infinite negative else finite negative (Nat.pow 2 52) (grade + 1)
  else if 2045 < grade then infinite negative else finite negative significand grade

theorem match_eq_settle (negative : Bool) (m g : Nat) :
    (match if m = Nat.pow 2 53 then (Nat.pow 2 52, g + 1) else (m, g) with
      | (significand, grade) => if 2045 < grade then infinite negative else finite negative significand grade) =
      settle negative m g := by
  unfold settle
  by_cases hfull : m = Nat.pow 2 53
  · rw [if_pos hfull, if_pos hfull]
  · rw [if_neg hfull, if_neg hfull]

theorem round_eq (negative : Bool) (num den : Nat) : round negative num den =
    settle negative (divideToEven (num * unitsPerOne) (den * 2 ^ gradeOf (num * unitsPerOne / den)))
      (gradeOf (num * unitsPerOne / den)) := by
  -- the definition is opened as a function: with arguments, checking it would count up to the number of units in one
  have hround : round = fun negative num den =>
      let scaled := num * unitsPerOne
      let grade := gradeOf (scaled / den)
      let significand := divideToEven scaled (den * Nat.pow 2 grade)
      match if significand = Nat.pow 2 53 then (Nat.pow 2 52, grade + 1) else (significand, grade) with
      | (significand, grade) => if 2045 < grade then infinite negative else finite negative significand grade := rfl
  rw [hround, ← Nat.pow_eq]
  exact match_eq_settle negative _ _

theorem settle_canonical (negative : Bool) (h : m ≤ 2 ^ 53) (g : Nat) : (settle negative m g).Canonical := by
  unfold settle
  rw [Nat.pow_eq, Nat.pow_eq]
  split_ifs with hfull
  · trivial
  · show 2 ^ 52 < 2 ^ 53
    decide
  · trivial
  · exact Nat.lt_of_le_of_ne h hfull

theorem round_canonical (negative : Bool) (num den : Nat) : (round negative num den).Canonical := by
  rw [round_eq]
  apply settle_canonical
  have hle := divideToEven_le (num * unitsPerOne) (den * 2 ^ gradeOf (num * unitsPerOne / den))
  rw [← Nat.div_div_eq_div_mul] at hle
  exact Nat.le_trans hle (div_gradeOf_lt _)

theorem ofNat_canonical (n : Nat) : (ofNat n).Canonical := round_canonical false n 1

theorem zero_canonical (negative : Bool) : (zero negative).Canonical := Nat.two_pow_pos 53

theorem mul_canonical (x y : Binary64) : (x.mul y).Canonical := by
  unfold mul
  split
  · trivial
  · trivial
  · trivial
  · split <;> trivial
  · split <;> trivial
  · generalize unitsPerOne * unitsPerOne = den
    exact round_canonical _ _ den

theorem div_canonical (x y : Binary64) : (x.div y).Canonical := by
  unfold div
  split
  · trivial
  · trivial
  · trivial
  · trivial
  · exact zero_canonical _
  · split
    · split <;> trivial
    · exact round_canonical _ _ _

theorem neg_canonical {x : Binary64} (h : x.Canonical) : x.neg.Canonical := by
  cases x with
  | finite _ _ _ => exact h
  | _ => trivial

theorem settle_cases (negative : Bool) (m g : Nat) : (settle negative m g = infinite negative ∧ 2045 ≤ g) ∨
    ∃ m' g', settle negative m g = finite negative m' g' ∧ units m' g' = m * 2 ^ g := by
  unfold settle
  rw [Nat.pow_eq, Nat.pow_eq]
  split_ifs with hfull hover hover
  · exact .inl ⟨rfl, by omega⟩
  · refine .inr ⟨2 ^ 52, g + 1, rfl, ?_⟩
    rw [units_eq, hfull, ← Nat.pow_add, ← Nat.pow_add]
    congr 1
    omega
  · exact .inl ⟨rfl, by omega⟩
  · exact .inr ⟨m, g, rfl, units_eq m g⟩

theorem le_of_gradeOf {w : Nat} (h : 2045 ≤ gradeOf (w * unitsPerOne)) : 2 ^ 64 ≤ w := by
  by_contra hlt
  have hbound : w * unitsPerOne < 2 ^ (64 + oneGrade) := by
    rw [Nat.pow_add, unitsPerOne_eq]
    exact Nat.mul_lt_mul_of_pos_right (Nat.lt_of_not_le hlt) (Nat.two_pow_pos _)
  unfold gradeOf at h
  have hzero : w * unitsPerOne ≠ 0 := by
    intro hzero
    rw [hzero, Nat.log2_zero] at h
    omega
  have hlog := (Nat.log2_lt hzero).mpr hbound
  have hgrade := oneGrade_eq
  omega

/-- A whole number that fits in 53 bits of some grade is kept, unless it is far too large. -/
theorem round_exact {w : Nat} (negative : Bool) (hm : m < 2 ^ 53) (h : w * unitsPerOne = m * 2 ^ g) :
    (round negative w 1 = infinite negative ∧ 2 ^ 64 ≤ w) ∨
      ∃ m' g', round negative w 1 = finite negative m' g' ∧ units m' g' = w * unitsPerOne := by
  have hgrade : gradeOf (w * unitsPerOne) ≤ g := by
    rw [h]
    exact gradeOf_le hm g
  have hlarge : 2045 ≤ gradeOf (w * unitsPerOne) → 2 ^ 64 ≤ w := le_of_gradeOf
  rw [round_eq, Nat.div_one, Nat.one_mul]
  generalize w * unitsPerOne = scaled at h hgrade hlarge
  have hscaled : scaled = m * 2 ^ (g - gradeOf scaled) * 2 ^ gradeOf scaled := by
    rw [Nat.mul_assoc, ← Nat.pow_add, Nat.sub_add_cancel hgrade]
    exact h
  generalize gradeOf scaled = grade at hgrade hlarge hscaled
  have hdivide : divideToEven scaled (2 ^ grade) = m * 2 ^ (g - grade) := by
    rw [hscaled]
    exact divideToEven_mul _ (Nat.two_pow_pos grade)
  rw [hdivide]
  rcases settle_cases negative (m * 2 ^ (g - grade)) grade with ⟨hinfinite, hover⟩ | ⟨m', g', hfinite, hunits⟩
  · exact .inl ⟨hinfinite, hlarge hover⟩
  · exact .inr ⟨m', g', hfinite, by rw [hunits, ← hscaled]⟩

/-! ## The nearest whole number -/

/-- The whole number nearest to a number of units, a half going up. -/
def nearest (n : Nat) : Nat := (2 * n + unitsPerOne) / (2 * unitsPerOne)

theorem nearest_mul (n : Nat) : nearest (n * unitsPerOne) = n := by
  have hpos := unitsPerOne_pos
  unfold nearest
  generalize unitsPerOne = unit at hpos
  rw [← Nat.mul_assoc, ← Nat.succ_mul, Nat.mul_div_mul_right _ _ hpos]
  omega

theorem nearest_le {n k : Nat} (h : 2 * n ≤ k * unitsPerOne) : nearest n ≤ (k + 1) / 2 := by
  have hpos := unitsPerOne_pos
  unfold nearest
  generalize unitsPerOne = unit at hpos h
  rw [← Nat.mul_div_mul_right (k + 1) 2 hpos]
  apply Nat.div_le_div_right
  rw [Nat.succ_mul k]
  exact Nat.add_le_add_right h unit

theorem exists_nearest (hm : m < 2 ^ 53) (g : Nat) :
    ∃ m' g', m' < 2 ^ 53 ∧ nearest (units m g) * unitsPerOne = m' * 2 ^ g' := by
  rw [units_eq]
  by_cases hgrade : oneGrade ≤ g
  · obtain ⟨k, rfl⟩ := Nat.exists_eq_add_of_le' hgrade
    refine ⟨m, k + oneGrade, hm, ?_⟩
    have hunits : m * 2 ^ (k + oneGrade) = m * 2 ^ k * unitsPerOne := by rw [unitsPerOne_eq, Nat.pow_add, Nat.mul_assoc]
    rw [hunits, nearest_mul]
  · have htwice : 2 * (m * 2 ^ g) ≤ m * unitsPerOne := by
      rw [Nat.mul_left_comm, ← Nat.pow_succ', unitsPerOne_eq]
      exact Nat.mul_le_mul_left m (Nat.pow_le_pow_right (by decide) (by omega))
    refine ⟨nearest (m * 2 ^ g), oneGrade, ?_, by rw [← unitsPerOne_eq]⟩
    have hle := nearest_le htwice
    omega

theorem truncate?_zero (negative : Bool) : (zero negative).truncate? = some 0 := by
  rw [zero, truncate?, units_eq, Nat.zero_mul, Nat.zero_div]
  cases negative <;> rfl

/-- Rounding and then leaving out the fraction finds the nearest whole number, up to the largest word of 64 bits. -/
theorem truncate?_roundAway (hm : m < 2 ^ 53) (hnonneg : negative = false ∨ m = 0) (g : Nat) :
    ((finite negative m g).roundAway.truncate?.map Int.toNat).filter (· < Nat.pow 2 64) =
      if nearest (units m g) < 2 ^ 64 then some (nearest (units m g)) else none := by
  have hround : (finite negative m g).roundAway =
      if nearest (units m g) = 0 then zero negative else round negative (nearest (units m g)) 1 := rfl
  have hsign : nearest (units m g) ≠ 0 → negative = false := by
    intro hne
    rcases hnonneg with rfl | rfl
    · rfl
    · have hzero := nearest_mul 0
      rw [Nat.zero_mul] at hzero
      rw [units_eq, Nat.zero_mul] at hne
      exact absurd hzero hne
  obtain ⟨m', g', hm', hnearest⟩ := exists_nearest hm g
  rw [hround, Nat.pow_eq]
  generalize nearest (units m g) = w at hnearest hsign
  by_cases hzero : w = 0
  · subst hzero
    rw [if_pos rfl, if_pos (Nat.two_pow_pos 64), truncate?_zero]
    rfl
  · obtain rfl := hsign hzero
    rw [if_neg hzero]
    rcases round_exact false hm' hnearest with ⟨hinfinite, hlarge⟩ | ⟨m'', g'', hfinite, hunits⟩
    · rw [hinfinite, if_neg (Nat.not_lt.mpr hlarge)]
      rfl
    · have htruncate : (finite false m'' g'').truncate? = some (w : Int) := by
        rw [truncate?, hunits, Nat.mul_div_cancel w unitsPerOne_pos]
        rfl
      rw [hfinite, htruncate, Option.map_some, Int.toNat_natCast, Option.filter_some]
      simp only [decide_eq_true_eq]

end

end Binary64

theorem round_div_unitsPerOne (n : Nat) : round ((n : ℚ) / Binary64.unitsPerOne) = (Binary64.nearest n : Int) := by
  have hpos := Binary64.unitsPerOne_pos
  unfold Binary64.nearest
  generalize Binary64.unitsPerOne = unit at hpos
  have hsum : (n : ℚ) / unit + 1 / 2 = ((2 * n + unit : Nat) : ℚ) / ((2 * unit : Nat) : ℚ) := by
    push_cast
    field_simp
  rw [round_eq, hsum, Rat.floor_natCast_div_natCast]
  rfl

end WalletTopUp
