import Mathlib.Data.ENat.Lattice
import WalletTopUp.Proofs.Number.Binary64

/-!
# Rounding keeps the order

Numbers of the format are compared by their size in units, where everything beyond the format counts as infinite. The
larger of two quotients is not rounded to the smaller number (`size_round_mono`). A number of the format is its own
rounding, so a quotient is never rounded past one (`le_size_round`, `size_round_le`), and neither is a product
(`le_size_mul`, `size_mul_le`). A product that has 53 bits is therefore exact (`size_mul_of_eq`).
-/

namespace WalletTopUp

namespace Binary64

section
variable {n m g num den num' den' a b : Nat} {negative : Bool} {x y x' y' : Binary64}

/-! ## Rounding a quotient -/

theorem divideToEven_even {k : Nat} (hden : 0 < den) (h : 2 * num = (2 * k + 1) * den) :
    divideToEven num den % 2 = 0 := by
  have hodd : (2 * k + 1) * den = 2 * (k * den) + den := by ring
  have hnext : (k + 1) * den = k * den + den := by ring
  have hwhole : num / den = k := Nat.div_eq_of_lt_le (by omega) (by omega)
  have hnum : den * (num / den) + num % den = num := Nat.div_add_mod num den
  rw [hwhole, Nat.mul_comm] at hnum
  unfold divideToEven
  dsimp only
  rw [hwhole]
  split_ifs <;> omega

theorem divideToEven_mono (hden : 0 < den) (hden' : 0 < den') (h : num * den' ≤ num' * den) :
    divideToEven num den ≤ divideToEven num' den' := by
  by_contra hlt
  obtain ⟨k, hk⟩ := Nat.exists_eq_add_of_lt (Nat.lt_of_not_le hlt)
  have hnear := (divideToEven_near num hden).1
  have hnear' := (divideToEven_near num' hden').2
  have hlast : 2 * num = (2 * divideToEven num' den' + 1) * den → _ := divideToEven_even hden
  have hlast' : 2 * num' = (2 * divideToEven num' den' + 1) * den' → _ := divideToEven_even hden'
  generalize divideToEven num' den' = q at hk hnear' hlast hlast'
  rw [hk] at hnear hlast
  have hstep : (q + k + 1) * den = q * den + k * den + den := by ring
  have hmiddle : (2 * q + 1) * den = 2 * (q * den) + den := by ring
  have hmiddle' : (2 * q + 1) * den' = 2 * (q * den') + den' := by ring
  -- the first quotient is not below the middle between `q` and its successor, and the second one not above it
  have habove : (2 * q + 1) * den * den' ≤ 2 * num * den' := Nat.mul_le_mul_right _ (by omega)
  have hbelow : 2 * num' * den ≤ (2 * q + 1) * den' * den := Nat.mul_le_mul_right _ (by omega)
  have hswap : (2 * q + 1) * den' * den = (2 * q + 1) * den * den' := Nat.mul_right_comm _ _ _
  have hcross : 2 * num * den' ≤ 2 * num' * den := by
    rw [Nat.mul_assoc, Nat.mul_assoc]
    exact Nat.mul_le_mul_left 2 h
  have htie : 2 * num = (2 * q + 1) * den := Nat.eq_of_mul_eq_mul_right hden' (by omega)
  have htie' : 2 * num' = (2 * q + 1) * den' := Nat.eq_of_mul_eq_mul_right hden (by omega)
  have hzero : k * den = 0 := by omega
  have heven := hlast htie
  have heven' := hlast' htie'
  have hk : k = 0 := (Nat.mul_eq_zero.mp hzero).resolve_right (by omega)
  omega

/-! ## Rounding to the format -/

theorem gradeOf_mono (h : n ≤ m) : gradeOf n ≤ gradeOf m := by
  unfold gradeOf
  by_cases hzero : n = 0
  · rw [hzero, Nat.log2_zero]
    exact Nat.zero_le _
  · have hlog : n.log2 ≤ m.log2 := by
      rw [Nat.le_log2 (by omega)]
      exact Nat.le_trans (Nat.log2_self_le hzero) h
    omega

theorem le_of_gradeOf_pos (h : 0 < gradeOf n) : 2 ^ 52 * 2 ^ gradeOf n ≤ n := by
  unfold gradeOf at h ⊢
  rw [← Nat.pow_add, Nat.add_sub_cancel' (by omega)]
  refine Nat.log2_self_le fun hzero => ?_
  rw [hzero, Nat.log2_zero] at h
  omega

/-- The units of a quotient when 53 bits of it are kept. -/
def keep (num den : Nat) : Nat :=
  divideToEven num (den * 2 ^ gradeOf (num / den)) * 2 ^ gradeOf (num / den)

theorem keep_le (num den : Nat) : keep num den ≤ 2 ^ 53 * 2 ^ gradeOf (num / den) := by
  refine Nat.mul_le_mul_right _ ?_
  have hle := divideToEven_le num (den * 2 ^ gradeOf (num / den))
  rw [← Nat.div_div_eq_div_mul] at hle
  exact Nat.le_trans hle (div_gradeOf_lt _)

theorem keep_mul (hm : m < 2 ^ 53) (hden : 0 < den) : keep (m * 2 ^ g * den) den = m * 2 ^ g := by
  have hgrade := gradeOf_le hm g
  have hpower : 2 ^ g = 2 ^ (g - gradeOf (m * 2 ^ g)) * 2 ^ gradeOf (m * 2 ^ g) := by
    rw [← Nat.pow_add, Nat.sub_add_cancel hgrade]
  unfold keep
  rw [Nat.mul_div_cancel _ hden]
  generalize gradeOf (m * 2 ^ g) = grade at hpower
  have hunits : m * 2 ^ g * den = m * 2 ^ (g - grade) * (den * 2 ^ grade) := by
    rw [hpower]
    ring
  rw [hunits, divideToEven_mul _ (Nat.mul_pos hden (Nat.two_pow_pos _)), hpower, Nat.mul_assoc]

theorem le_divideToEven_of_gradeOf_pos (hden : 0 < den) (h : 0 < gradeOf (num / den)) :
    2 ^ 52 ≤ divideToEven num (den * 2 ^ gradeOf (num / den)) := by
  have hpos : 0 < den * 2 ^ gradeOf (num / den) := Nat.mul_pos hden (Nat.two_pow_pos _)
  have hle := le_of_gradeOf_pos h
  rw [Nat.le_div_iff_mul_le hden] at hle
  rw [← divideToEven_mul (2 ^ 52) hpos]
  refine divideToEven_mono hpos hpos (Nat.mul_le_mul_right _ ?_)
  rw [← Nat.mul_assoc, Nat.mul_right_comm]
  exact hle

theorem keep_mono (hden : 0 < den) (hden' : 0 < den') (h : num * den' ≤ num' * den) :
    keep num den ≤ keep num' den' := by
  have hwhole : num / den ≤ num' / den' := by
    rw [Nat.le_div_iff_mul_le hden']
    apply Nat.le_of_mul_le_mul_right _ hden
    calc num / den * den' * den = num / den * den * den' := Nat.mul_right_comm _ _ _
      _ ≤ num * den' := Nat.mul_le_mul_right _ (Nat.div_mul_le_self num den)
      _ ≤ num' * den := h
  rcases Nat.eq_or_lt_of_le (gradeOf_mono hwhole) with hgrade | hgrade
  · unfold keep
    rw [hgrade]
    refine Nat.mul_le_mul_right _ (divideToEven_mono (Nat.mul_pos hden (Nat.two_pow_pos _))
      (Nat.mul_pos hden' (Nat.two_pow_pos _)) ?_)
    rw [← Nat.mul_assoc, ← Nat.mul_assoc]
    exact Nat.mul_le_mul_right _ h
  · -- in a higher grade even the least significand exceeds all of the lower one
    have hfull := le_divideToEven_of_gradeOf_pos hden' (Nat.zero_lt_of_lt hgrade)
    calc keep num den ≤ 2 ^ 53 * 2 ^ gradeOf (num / den) := keep_le num den
      _ = 2 ^ 52 * 2 ^ (gradeOf (num / den) + 1) := by rw [Nat.pow_succ 2 (gradeOf _)]; omega
      _ ≤ 2 ^ 52 * 2 ^ gradeOf (num' / den') := Nat.mul_le_mul_left _ (Nat.pow_le_pow_right (by decide) hgrade)
      _ ≤ keep num' den' := Nat.mul_le_mul_right _ hfull

/-! ## Sizes -/

/-- How far a number is from zero, in units; what is not finite is larger than every number. -/
def size : Binary64 → ℕ∞
  | finite _ significand grade => units significand grade
  | _ => ⊤

@[irreducible] def topGrade : Nat := 2045

theorem topGrade_eq : topGrade = 2045 := by
  rw [topGrade]

theorem two_pow_mul_unit {k : Nat} (hk : k ≤ oneGrade) : 2 ^ k * 2 ^ (oneGrade - k) = unitsPerOne := by
  rw [← Nat.pow_add, Nat.add_sub_cancel' hk, unitsPerOne_eq]

theorem le_topGrade (h : g ≤ oneGrade) : g ≤ topGrade := by
  rw [oneGrade_eq] at h
  rw [topGrade_eq]
  omega

/-- So many units are beyond the format. -/
def limit : Nat := 2 ^ (53 + topGrade)

def bounded (n : Nat) : ℕ∞ := if n < limit then n else ⊤

theorem bounded_mono (h : n ≤ m) : bounded n ≤ bounded m := by
  unfold bounded
  split_ifs with hn hm hm
  · exact_mod_cast h
  · exact le_top
  · omega
  · exact le_rfl

theorem le_bounded (n : Nat) : (n : ℕ∞) ≤ bounded n := by
  unfold bounded
  split_ifs
  · exact le_rfl
  · exact le_top

theorem bounded_of_lt (h : n < limit) : bounded n = n := if_pos h

theorem lt_limit (hm : m < 2 ^ 53) (hg : g ≤ topGrade) : m * 2 ^ g < limit := by
  rw [limit, Nat.pow_add]
  exact Nat.mul_lt_mul_of_lt_of_le hm (Nat.pow_le_pow_right (by decide) hg) (Nat.two_pow_pos _)

theorem size_settle (negative : Bool) (hm : m ≤ 2 ^ 53) (hfull : 0 < g → 2 ^ 52 ≤ m) :
    (settle negative m g).size = bounded (m * 2 ^ g) := by
  have htop := topGrade_eq
  unfold settle bounded limit
  rw [Nat.pow_eq, Nat.pow_eq, ← htop]
  by_cases hcarry : m = 2 ^ 53
  · have hless : 2 ^ (53 + g) < 2 ^ (53 + topGrade) ↔ 53 + g < 53 + topGrade := Nat.pow_lt_pow_iff_right (by decide)
    rw [if_pos hcarry, hcarry, ← Nat.pow_add]
    split_ifs with hover hlt hlt
    · omega
    · rfl
    · rw [size, units_eq, ← Nat.pow_add, show 52 + (g + 1) = 53 + g by omega]
    · omega
  · rw [if_neg hcarry]
    split_ifs with hover hlt hlt
    · have hle : 2 ^ 52 * 2 ^ (topGrade + 1) ≤ m * 2 ^ g :=
        Nat.mul_le_mul (hfull (by omega)) (Nat.pow_le_pow_right (by decide) hover)
      rw [← Nat.pow_add, show 52 + (topGrade + 1) = 53 + topGrade by omega] at hle
      omega
    · rfl
    · rw [size, units_eq]
    · exact absurd (lt_limit (by omega) (by omega)) hlt

theorem size_round (negative : Bool) (num : Nat) (hden : 0 < den) :
    (round negative num den).size = bounded (keep (num * unitsPerOne) den) := by
  rw [round_eq]
  unfold keep
  generalize num * unitsPerOne = scaled
  apply size_settle
  · have hle := divideToEven_le scaled (den * 2 ^ gradeOf (scaled / den))
    rw [← Nat.div_div_eq_div_mul] at hle
    exact Nat.le_trans hle (div_gradeOf_lt _)
  · intro hgrade
    exact le_divideToEven_of_gradeOf_pos hden hgrade

/-- The larger of two quotients is not rounded to the smaller number. -/
theorem size_round_mono {negative' : Bool} (hden : 0 < den) (hden' : 0 < den') (h : num * den' ≤ num' * den) :
    (round negative num den).size ≤ (round negative' num' den').size := by
  rw [size_round _ _ hden, size_round _ _ hden']
  refine bounded_mono (keep_mono hden hden' ?_)
  rw [Nat.mul_right_comm, Nat.mul_right_comm num']
  exact Nat.mul_le_mul_right _ h

/-- A quotient is not rounded past a number of the format that is below it. -/
theorem le_size_round (negative : Bool) (hm : m < 2 ^ 53) (hden : 0 < den)
    (h : m * 2 ^ g * den ≤ num * unitsPerOne) : ((m * 2 ^ g : Nat) : ℕ∞) ≤ (round negative num den).size := by
  rw [size_round _ _ hden]
  refine le_trans ?_ (le_bounded _)
  rw [Nat.cast_le, ← keep_mul hm hden]
  exact keep_mono hden hden (Nat.mul_le_mul_right _ h)

theorem size_round_le (negative : Bool) (hm : m < 2 ^ 53) (hlimit : m * 2 ^ g < limit) (hden : 0 < den)
    (h : num * unitsPerOne ≤ m * 2 ^ g * den) : (round negative num den).size ≤ ((m * 2 ^ g : Nat) : ℕ∞) := by
  rw [size_round _ _ hden, ← bounded_of_lt hlimit]
  refine bounded_mono ?_
  rw [← keep_mul hm hden]
  exact keep_mono hden hden (Nat.mul_le_mul_right _ h)

/-! ## Products -/

theorem mul_finite {s t : Bool} {k l : Nat} : (finite s m g).mul (finite t k l) =
    round (s != t) (units m g * units k l) (unitsPerOne * unitsPerOne) := rfl

theorem exists_finite_of_size_ne_top (h : x.size ≠ ⊤) : ∃ s m g, x = finite s m g := by
  cases x with
  | finite s m g => exact ⟨s, m, g, rfl⟩
  | _ => exact absurd rfl h

theorem size_mul_of_top (h : x.size = ⊤ ∨ y.size = ⊤) : (x.mul y).size = ⊤ := by
  cases x with
  | nan => cases y <;> rfl
  | infinite s =>
    cases y with
    | finite t k l =>
      change size (if k = 0 then nan else infinite (s != t)) = ⊤
      split_ifs <;> rfl
    | _ => rfl
  | finite s m g =>
    cases y with
    | nan => rfl
    | infinite t =>
      change size (if m = 0 then nan else infinite (s != t)) = ⊤
      split_ifs <;> rfl
    | finite t k l =>
      rcases h with h | h
      · exact absurd h (ENat.natCast_ne_top _)
      · exact absurd h (ENat.natCast_ne_top _)

theorem size_mul_mono (hx : x.size ≤ x'.size) (hy : y.size ≤ y'.size) : (x.mul y).size ≤ (x'.mul y').size := by
  by_cases htop : x'.size = ⊤ ∨ y'.size = ⊤
  · rw [size_mul_of_top htop]
    exact le_top
  · obtain ⟨hx', hy'⟩ := not_or.mp htop
    obtain ⟨s, m, g, rfl⟩ := exists_finite_of_size_ne_top (ne_top_of_le_ne_top hx' hx)
    obtain ⟨t, k, l, rfl⟩ := exists_finite_of_size_ne_top (ne_top_of_le_ne_top hy' hy)
    obtain ⟨s', m', g', rfl⟩ := exists_finite_of_size_ne_top hx'
    obtain ⟨t', k', l', rfl⟩ := exists_finite_of_size_ne_top hy'
    have hunit := Nat.mul_pos unitsPerOne_pos unitsPerOne_pos
    rw [mul_finite, mul_finite]
    exact size_round_mono hunit hunit (Nat.mul_le_mul_right _ (Nat.mul_le_mul (Nat.cast_le.mp hx) (Nat.cast_le.mp hy)))

theorem le_size_mul (hm : m < 2 ^ 53) (hx : (a : ℕ∞) ≤ x.size) (hy : (b : ℕ∞) ≤ y.size)
    (h : m * 2 ^ g * unitsPerOne ≤ a * b) : ((m * 2 ^ g : Nat) : ℕ∞) ≤ (x.mul y).size := by
  by_cases htop : x.size = ⊤ ∨ y.size = ⊤
  · rw [size_mul_of_top htop]
    exact le_top
  · obtain ⟨hx', hy'⟩ := not_or.mp htop
    obtain ⟨s, k, l, rfl⟩ := exists_finite_of_size_ne_top hx'
    obtain ⟨t, k', l', rfl⟩ := exists_finite_of_size_ne_top hy'
    rw [mul_finite]
    refine le_size_round _ hm (Nat.mul_pos unitsPerOne_pos unitsPerOne_pos) ?_
    rw [← Nat.mul_assoc]
    exact Nat.mul_le_mul_right _ (Nat.le_trans h (Nat.mul_le_mul (Nat.cast_le.mp hx) (Nat.cast_le.mp hy)))

theorem size_mul_le (hm : m < 2 ^ 53) (hlimit : m * 2 ^ g < limit) (hx : x.size ≤ a) (hy : y.size ≤ b)
    (h : a * b ≤ m * 2 ^ g * unitsPerOne) : (x.mul y).size ≤ ((m * 2 ^ g : Nat) : ℕ∞) := by
  obtain ⟨s, k, l, rfl⟩ := exists_finite_of_size_ne_top (ne_top_of_le_ne_top (ENat.natCast_ne_top a) hx)
  obtain ⟨t, k', l', rfl⟩ := exists_finite_of_size_ne_top (ne_top_of_le_ne_top (ENat.natCast_ne_top b) hy)
  rw [mul_finite]
  refine size_round_le _ hm hlimit (Nat.mul_pos unitsPerOne_pos unitsPerOne_pos) ?_
  rw [← Nat.mul_assoc]
  exact Nat.mul_le_mul_right _ (Nat.le_trans (Nat.mul_le_mul (Nat.cast_le.mp hx) (Nat.cast_le.mp hy)) h)

theorem size_mul_of_eq (hm : m < 2 ^ 53) (hlimit : m * 2 ^ g < limit) (hx : x.size = a) (hy : y.size = b)
    (h : a * b = m * 2 ^ g * unitsPerOne) : (x.mul y).size = ((m * 2 ^ g : Nat) : ℕ∞) :=
  le_antisymm (size_mul_le hm hlimit hx.le hy.le h.le) (le_size_mul hm hx.ge hy.ge h.ge)

/-! ## Signs and the smaller of two numbers -/

inductive NonNeg : Binary64 → Prop
  | finite (significand grade : Nat) : NonNeg (.finite false significand grade)
  | infinite : NonNeg (.infinite false)

theorem round_nonNeg (num den : Nat) : (round false num den).NonNeg := by
  rw [round_eq]
  unfold settle
  split_ifs
  · exact .infinite
  · exact .finite _ _
  · exact .infinite
  · exact .finite _ _

/-- A product of numbers that are not below zero is none either, unless zero meets an infinity. -/
theorem mul_nonNeg (hx : x.NonNeg) (hy : y.NonNeg) :
    (x.mul y).NonNeg ∨ x.mul y = nan ∧ (x.size = 0 ∨ y.size = 0) := by
  have hzero (g : Nat) : size (finite false 0 g) = 0 := by
    rw [size, units_eq, Nat.zero_mul, Nat.cast_zero]
  cases hx with
  | infinite =>
    cases hy with
    | infinite => exact .inl .infinite
    | finite k l =>
      by_cases hk : k = 0
      · subst hk
        exact .inr ⟨rfl, .inr (hzero l)⟩
      · have hmul : (infinite false).mul (finite false k l) = infinite false := if_neg hk
        rw [hmul]
        exact .inl .infinite
  | finite m g =>
    cases hy with
    | infinite =>
      by_cases hm : m = 0
      · subst hm
        exact .inr ⟨rfl, .inl (hzero g)⟩
      · have hmul : (finite false m g).mul (infinite false) = infinite false := if_neg hm
        rw [hmul]
        exact .inl .infinite
    | finite k l =>
      rw [mul_finite, bne_self_eq_false]
      exact .inl (round_nonNeg _ _)

/-- What is not a number is passed over like one that is too large. -/
theorem exists_min_eq (hx : x.NonNeg ∨ x = nan) (m g : Nat) :
    ∃ k l, x.min (finite false m g) = finite false k l ∧ (units k l : ℕ∞) = Min.min x.size (units m g) := by
  rcases hx with hx | rfl
  · cases hx with
    | infinite => exact ⟨m, g, rfl, (min_eq_right le_top).symm⟩
    | finite k l =>
      have hmin : (finite false k l).min (finite false m g) =
          if units m g < units k l then finite false m g else finite false k l := by
        change (if decide (signedUnits false m g < signedUnits false k l) = true then _ else _) = _
        simp [signedUnits]
      rw [hmin, size]
      split_ifs with hless
      · exact ⟨m, g, rfl, (min_eq_right (Nat.cast_le.mpr hless.le)).symm⟩
      · exact ⟨k, l, rfl, (min_eq_left (Nat.cast_le.mpr (Nat.le_of_not_lt hless))).symm⟩
  · exact ⟨m, g, rfl, (min_eq_right le_top).symm⟩

theorem toWord_le (h : x.size ≤ a) : x.toWord ≤ a / unitsPerOne := by
  obtain ⟨s, m, g, rfl⟩ := exists_finite_of_size_ne_top (ne_top_of_le_ne_top (ENat.natCast_ne_top a) h)
  cases s with
  | true => exact Nat.zero_le _
  | false => exact Nat.le_trans (Nat.min_le_left _ _) (Nat.div_le_div_right (Nat.cast_le.mp h))

end

end Binary64

end WalletTopUp
