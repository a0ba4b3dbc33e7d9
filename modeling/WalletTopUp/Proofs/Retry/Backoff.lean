import WalletTopUp.Proofs.Number.Power
import WalletTopUp.Retry.Policy

/-!
# How long a wait is

A wait is computed in floating point, and still it is what whole numbers give: the first length, multiplied after
every attempt until the cap is reached (`backoff_grows`). Jitter adds a quarter at most. Waits grow with the exponent
of their power (`baseBackoff_mono`), which is the number of the attempt up to `2^31`. From there on the number is
taken for a negative one, so a wait drops and then grows again (`backoff_ordered`).
-/

namespace WalletTopUp

namespace RetryPolicy
open Binary64 (unitsPerOne unitsPerOne_pos unitsPerOne_eq oneGrade)

section
variable {p : RetryPolicy} {i m k n a b attempt base : Nat} {q : ℚ} {draw : Fin 1000}

/-! ## The wait without jitter -/

/-- What the first length has grown to before it is capped. -/
def grown (p : RetryPolicy) (attempt : Nat) : Binary64 :=
  (Binary64.ofNat p.initialMillis).mul (p.multiplier.power (signedWord attempt))

theorem baseBackoff_eq (p : RetryPolicy) (attempt : Nat) :
    p.baseBackoff attempt = ((p.grown attempt).min (.ofNat p.capMillis)).toWord := rfl

/-- A wait is the whole part of what the first length has grown to, or the cap. -/
theorem exists_baseBackoff_eq (hcap : p.capMillis < 2 ^ 53) (hq : p.multiplier.AtLeastOne) (attempt : Nat) :
    ∃ u : Nat, (u : ℕ∞) = min (p.grown attempt).size (p.capMillis * unitsPerOne : Nat) ∧
      p.baseBackoff attempt = u / unitsPerOne := by
  obtain ⟨m, g, hof, hunits⟩ := Binary64.exists_ofNat_eq hcap
  have hgrown : (p.grown attempt).NonNeg ∨ p.grown attempt = .nan :=
    (Binary64.mul_nonNeg (Binary64.ofNat_nonNeg _) (Binary64.power_nonNeg hq _)).imp_right And.left
  obtain ⟨k, l, hmin, hu⟩ := Binary64.exists_min_eq hgrown m g
  rw [hunits] at hu
  refine ⟨Binary64.units k l, hu, ?_⟩
  have hle : Binary64.units k l / unitsPerOne ≤ p.capMillis := by
    have hcapped : Binary64.units k l ≤ p.capMillis * unitsPerOne := Nat.cast_le.mp (hu.le.trans (min_le_right _ _))
    exact Nat.le_trans (Nat.div_le_div_right hcapped) (Nat.mul_div_cancel _ unitsPerOne_pos).le
  rw [baseBackoff_eq, hof, hmin]
  refine Nat.min_eq_left (Nat.le_trans hle ?_)
  rw [Nat.pow_eq]
  omega

theorem baseBackoff_le_cap (hcap : p.capMillis < 2 ^ 53) (hq : p.multiplier.AtLeastOne) (attempt : Nat) :
    p.baseBackoff attempt ≤ p.capMillis := by
  obtain ⟨u, hu, hwait⟩ := exists_baseBackoff_eq hcap hq attempt
  rw [hwait, Nat.div_le_iff_le_mul_add_pred unitsPerOne_pos]
  have hle : u ≤ p.capMillis * unitsPerOne := Nat.cast_le.mp (hu.le.trans (min_le_right _ _))
  rw [Nat.mul_comm]
  omega

theorem baseBackoff_le (hcap : p.capMillis < 2 ^ 53) (hq : p.multiplier.AtLeastOne)
    (h : (p.grown attempt).size ≤ a) : p.baseBackoff attempt ≤ a / unitsPerOne := by
  obtain ⟨u, hu, hwait⟩ := exists_baseBackoff_eq hcap hq attempt
  rw [hwait]
  exact Nat.div_le_div_right (Nat.cast_le.mp (hu.le.trans ((min_le_left _ _).trans h)))

theorem le_baseBackoff (hcap : p.capMillis < 2 ^ 53) (hq : p.multiplier.AtLeastOne)
    (h : ((n * unitsPerOne : Nat) : ℕ∞) ≤ (p.grown attempt).size) (hn : n ≤ p.capMillis) :
    n ≤ p.baseBackoff attempt := by
  obtain ⟨u, hu, hwait⟩ := exists_baseBackoff_eq hcap hq attempt
  have hle : n * unitsPerOne ≤ u := by
    have hmin : ((n * unitsPerOne : Nat) : ℕ∞) ≤ u := by
      rw [hu]
      exact le_min h (Nat.cast_le.mpr (Nat.mul_le_mul_right _ hn))
    exact Nat.cast_le.mp hmin
  rwa [hwait, Nat.le_div_iff_mul_le unitsPerOne_pos]

theorem baseBackoff_mono (hcap : p.capMillis < 2 ^ 53) (hformat : p.multiplier.Canonical)
    (hq : p.multiplier.AtLeastOne) (h : signedWord a ≤ signedWord b) : p.baseBackoff a ≤ p.baseBackoff b := by
  obtain ⟨u, hu, hwait⟩ := exists_baseBackoff_eq hcap hq a
  obtain ⟨v, hv, hwait'⟩ := exists_baseBackoff_eq hcap hq b
  have hgrown : (p.grown a).size ≤ (p.grown b).size :=
    Binary64.size_mul_mono le_rfl (Binary64.size_power_mono hformat hq h)
  have hle : (u : ℕ∞) ≤ v := by
    rw [hu, hv]
    exact min_le_min_right _ hgrown
  rw [hwait, hwait']
  exact Nat.div_le_div_right (Nat.cast_le.mp hle)

/-! ## The wait as whole numbers give it -/

theorem signedWord_of_lt (h : attempt < 2 ^ 31) : signedWord attempt = attempt := by
  rw [signedWord, Nat.pow_eq, if_pos h]

theorem signedWord_of_le (h : 2 ^ 31 ≤ attempt) : signedWord attempt = attempt - 2 ^ 32 := by
  rw [signedWord, Nat.pow_eq, if_neg (Nat.not_lt.mpr h)]
  rfl

/-- What the first length has grown to is its product with a power as long as that has 53 bits. -/
theorem tracks_grown (hvalue : p.multiplier.value? = some (k : ℚ)) (hk : 1 ≤ k) (hinitial : 1 ≤ p.initialMillis)
    (hsmall : p.initialMillis < 2 ^ 53) (hn : n < 2 ^ 31) : (p.grown n).Tracks (p.initialMillis * k ^ n) := by
  have hpower : p.multiplier.power (signedWord n) = Binary64.powerNat p.multiplier n := by
    rw [signedWord_of_lt hn, Binary64.power, if_neg (by omega), Int.natAbs_natCast]
  rw [grown, hpower]
  exact (Binary64.tracks_ofNat hsmall).mul ((Binary64.tracks_of_value? hvalue hk).powerNat hk n) hinitial
    (Nat.pow_pos hk)

theorem baseBackoff_eq_min (hvalue : p.multiplier.value? = some (k : ℚ)) (hk : 1 ≤ k) (hinitial : 1 ≤ p.initialMillis)
    (hsmall : p.initialMillis < 2 ^ 53) (hcap : p.capMillis < 2 ^ 53) (hn : n < 2 ^ 31) :
    p.baseBackoff n = min (p.initialMillis * k ^ n) p.capMillis := by
  have htracks := tracks_grown hvalue hk hinitial hsmall hn
  have hq := Binary64.atLeastOne_of_value? hvalue (by exact_mod_cast hk)
  refine Nat.le_antisymm (Nat.le_min.mpr ⟨?_, baseBackoff_le_cap hcap hq n⟩) ?_
  · rcases Nat.lt_or_ge (p.initialMillis * k ^ n) (2 ^ 53) with hlt | hge
    · refine Nat.le_trans (baseBackoff_le hcap hq (htracks.exact hlt).le) ?_
      rw [Nat.mul_div_cancel _ unitsPerOne_pos]
    · have := baseBackoff_le_cap hcap hq n
      omega
  · refine le_baseBackoff hcap hq (le_trans (Nat.cast_le.mpr (Nat.mul_le_mul_right _ ?_)) htracks.le_size)
      (Nat.min_le_right _ _)
    omega

/-- The wait as it is meant: it starts at a first length and is multiplied after every attempt, up to the cap. -/
def stepped (first factor cap : Nat) : (attempt : Nat) → Nat
  | 0 => first
  | attempt + 1 => min (stepped first factor cap attempt * factor) cap

theorem stepped_eq (him : i ≤ m) (hk : 1 ≤ k) (n : Nat) : stepped i k m n = min (i * k ^ n) m := by
  induction n with
  | zero => rw [stepped, Nat.pow_zero, Nat.mul_one, Nat.min_eq_left him]
  | succ n ih =>
    have hcap : m ≤ m * k := Nat.le_mul_of_pos_right m hk
    rw [stepped, ih, Nat.pow_succ, ← Nat.mul_assoc, ← Nat.mul_min_mul_right, Nat.min_assoc, Nat.min_eq_right hcap]

/-! ## Jitter -/

theorem four_mul_quarter : 4 * 2 ^ (oneGrade - 2) = unitsPerOne := by
  have htwo : 2 ≤ oneGrade := by rw [Binary64.oneGrade_eq]; decide
  exact Binary64.two_pow_mul_unit htwo

theorem size_quarter_le : (Binary64.ofDecimal false 25 (-2)).size ≤ ((2 ^ (oneGrade - 2) : Nat) : ℕ∞) := by
  have hhundred : Nat.pow 10 (-(-2 : Int)).toNat = 100 := by decide
  rw [Binary64.ofDecimal, if_neg (by decide), hhundred, ← Nat.one_mul (2 ^ (oneGrade - 2))]
  refine Binary64.size_round_le false (by decide)
    (Binary64.lt_limit (by decide) (Binary64.le_topGrade (Nat.sub_le _ _))) (by decide) ?_
  rw [← four_mul_quarter]
  omega

theorem size_fraction_le (draw : Fin 1000) : (fraction draw).size ≤ unitsPerOne := by
  obtain ⟨m, g, hdraw, hunits⟩ := Binary64.exists_ofNat_eq (Nat.lt_trans draw.isLt (by decide : 1000 < 2 ^ 53))
  obtain ⟨k, l, hthousand, hunits'⟩ := Binary64.exists_ofNat_eq (by decide : 1000 < 2 ^ 53)
  have hpos : 0 < 1000 * unitsPerOne := Nat.mul_pos (by decide) unitsPerOne_pos
  have hk : k ≠ 0 := by
    rintro rfl
    rw [Binary64.units_eq, Nat.zero_mul] at hunits'
    omega
  rw [fraction, hdraw, hthousand, Binary64.div, if_neg hk, hunits, hunits', Binary64.unitsPerOne_eq_mul]
  refine Binary64.size_round_le _ (by decide) (Binary64.lt_limit (by decide) (Binary64.le_topGrade le_rfl)) ?_ ?_
  · rwa [← Binary64.unitsPerOne_eq_mul]
  · rw [← Binary64.unitsPerOne_eq_mul, Nat.mul_comm unitsPerOne]
    exact Nat.mul_le_mul_right _ (Nat.mul_le_mul_right _ draw.isLt.le)

theorem jitterMillis_le (hbase : base < 2 ^ 53) (draw : Fin 1000) : jitterMillis base draw ≤ base / 4 := by
  have hlimit := Binary64.lt_limit hbase (Binary64.le_topGrade (Nat.sub_le oneGrade 2))
  have hquarter : ((Binary64.ofNat base).mul (.ofDecimal false 25 (-2))).size ≤
      ((base * 2 ^ (oneGrade - 2) : Nat) : ℕ∞) := by
    refine Binary64.size_mul_le hbase hlimit (Binary64.size_ofNat hbase).le size_quarter_le ?_
    rw [Nat.mul_right_comm]
  have hpart := Binary64.size_mul_le hbase hlimit hquarter (size_fraction_le draw) le_rfl
  refine Nat.le_trans (Binary64.toWord_le hpart) ?_
  rw [← four_mul_quarter, Nat.mul_div_mul_right _ _ (Nat.two_pow_pos _)]

/-! ## All waits -/

theorem backoff_of_plain (hjitter : p.jitter = false) (n : Nat) (draw : Fin 1000) :
    p.backoff n draw = p.baseBackoff n := by
  rw [backoff, if_neg (by rw [hjitter]; exact Bool.false_ne_true)]

theorem backoff_of_jitter (hjitter : p.jitter = true) (n : Nat) (draw : Fin 1000) :
    p.backoff n draw = p.baseBackoff n + jitterMillis (p.baseBackoff n) draw := by
  rw [backoff, if_pos hjitter]

/-- **Waits grow by their factor up to the cap.** The multiplier is a whole number `k`, and the first length and the
cap are `i` and `m` whole milliseconds. Without jitter the wait before retry number `n + 1` is `i * k ^ n`
milliseconds or the cap, however large the power is, and that is what multiplying after every attempt comes to. With
jitter it is at least as long, and longer by a quarter at most. -/
theorem backoff_grows (hinitial : p.initialNanos = i * nanosPerMilli) (hcap : p.capNanos = m * nanosPerMilli)
    (hvalue : p.multiplier.value? = some (k : ℚ)) (hk : 1 ≤ k) (hi : 1 ≤ i) (him : i ≤ m) (hm : m < 2 ^ 53)
    (hn : n < 2 ^ 31) (draw : Fin 1000) :
    stepped i k m n = min (i * k ^ n) m ∧
      (p.jitter = false → p.backoff n draw = min (i * k ^ n) m) ∧
        (p.jitter = true → min (i * k ^ n) m ≤ p.backoff n draw ∧
          p.backoff n draw ≤ min (i * k ^ n) m + min (i * k ^ n) m / 4) := by
  have hmillis {n : Nat} : n * nanosPerMilli / nanosPerMilli = n := Nat.mul_div_cancel n (by decide)
  have hfirst : p.initialMillis = i := by rw [initialMillis, hinitial, hmillis]
  have hlast : p.capMillis = m := by rw [capMillis, hcap, hmillis]
  have hbase : p.baseBackoff n = min (i * k ^ n) m := by
    rw [← hfirst, ← hlast]
    exact baseBackoff_eq_min hvalue hk (by omega) (by omega) (by omega) hn
  refine ⟨stepped_eq him hk n, fun hjitter => ?_, fun hjitter => ?_⟩
  · rw [backoff_of_plain hjitter, hbase]
  · have hquarter : jitterMillis (p.baseBackoff n) draw ≤ p.baseBackoff n / 4 := jitterMillis_le (by omega) draw
    rw [backoff_of_jitter hjitter, ← hbase]
    exact ⟨Nat.le_add_right _ _, Nat.add_le_add_left hquarter _⟩

/-- The provider's policy doubles half a second up to five seconds, also where the power is beyond the format. -/
theorem backoff_grows_forProviders : forProviders.initialNanos = 500 * nanosPerMilli ∧
    forProviders.capNanos = 5000 * nanosPerMilli ∧ forProviders.multiplier.value? = some ((2 : Nat) : ℚ) ∧
      forProviders.jitter = true ∧
        5000 ≤ forProviders.backoff 1100 999 ∧ forProviders.backoff 1100 999 ≤ 6250 := by
  have hmultiplier : forProviders.multiplier = .ofNat 2 := by rw [forProviders]
  have hvalue : forProviders.multiplier.value? = some ((2 : Nat) : ℚ) := by
    rw [hmultiplier, Binary64.value?_ofNat (by decide)]
  have hpower : 2 ^ 4 ≤ 2 ^ 1100 := by
    apply Nat.pow_le_pow_right <;> decide
  obtain ⟨-, -, hwait⟩ := backoff_grows (p := forProviders) (i := 500) (m := 5000) (k := 2) (n := 1100) rfl rfl hvalue
    (by decide) (by decide) (by decide) (by decide) (by decide) 999
  generalize 2 ^ 1100 = power at hpower hwait
  rw [show min (500 * power) 5000 = 5000 by omega] at hwait
  exact ⟨rfl, rfl, hvalue, rfl, hwait rfl⟩

theorem initialMillis_le_baseBackoff (hone : p.multiplier.AtLeastOne) (hinitial : p.initialMillis < 2 ^ 53)
    (hcap : p.capMillis < 2 ^ 53) (hhigh : p.initialMillis ≤ p.capMillis) (h : attempt < 2 ^ 31) :
    p.initialMillis ≤ p.baseBackoff attempt := by
  refine le_baseBackoff hcap hone ?_ hhigh
  have hpower := Binary64.one_le_size_power hone (e := signedWord attempt) (by rw [signedWord_of_lt h]; omega)
  rw [unitsPerOne_eq]
  refine Binary64.le_size_mul hinitial (Binary64.size_ofNat hinitial).ge hpower ?_
  rw [← unitsPerOne_eq]

/-- From `2^31` on a wait has at most half the first length, when the multiplier is two or more. -/
theorem baseBackoff_le_half (hformat : p.multiplier.Canonical) (hvalue : p.multiplier.value? = some q) (htwo : 2 ≤ q)
    (hinitial : p.initialMillis < 2 ^ 53) (hcap : p.capMillis < 2 ^ 53) (h : 2 ^ 31 ≤ attempt)
    (hlt : attempt < 2 ^ 32) :
    p.baseBackoff attempt ≤ p.initialMillis / 2 := by
  have hq : 1 ≤ q := le_trans one_le_two htwo
  have hone := Binary64.atLeastOne_of_value? hvalue hq
  have hhalf : 2 * 2 ^ (oneGrade - 1) = unitsPerOne := by
    have hgrade : 1 ≤ oneGrade := by rw [Binary64.oneGrade_eq]; decide
    rw [← Binary64.two_pow_mul_unit hgrade, Nat.pow_one]
  have hpower : (p.multiplier.power (signedWord attempt)).size ≤ ((2 ^ (oneGrade - 1) : Nat) : ℕ∞) := by
    refine Binary64.size_power_neg_le hformat hone (by rw [Binary64.oneGrade_eq]; decide) ?_
      (by rw [signedWord_of_le h]; omega)
    exact Binary64.le_size_of_value? hvalue hq (by exact_mod_cast htwo)
  have hgrown : (p.grown attempt).size ≤ ((p.initialMillis * 2 ^ (oneGrade - 1) : Nat) : ℕ∞) := by
    refine Binary64.size_mul_le hinitial (Binary64.lt_limit hinitial (Binary64.le_topGrade (Nat.sub_le _ _)))
      (Binary64.size_ofNat hinitial).le hpower ?_
    rw [Nat.mul_right_comm]
  refine Nat.le_trans (baseBackoff_le hcap hone hgrown) ?_
  rw [← hhalf, Nat.mul_div_mul_right _ _ (Nat.two_pow_pos _)]

/-- **Waits are ordered on either side of `2^31`.** No wait is longer than the cap. A later wait is not shorter as
long as both numbers are below `2^31` or both are not. Between the two sides it is the other way round, and for a
multiplier of two or more and a first length between one millisecond and the cap the later wait is shorter. -/
theorem backoff_ordered (hjitter : p.jitter = false) (hformat : p.multiplier.Canonical)
    (hvalue : p.multiplier.value? = some q) (hq : 1 ≤ q) (hinitial : p.initialMillis < 2 ^ 53)
    (hcap : p.capMillis < 2 ^ 53) (hab : a ≤ b) (hb : b < 2 ^ 32) (drawn drawn' : Fin 1000) :
    p.backoff b drawn' ≤ p.capMillis ∧
      (b < 2 ^ 31 ∨ 2 ^ 31 ≤ a → p.backoff a drawn ≤ p.backoff b drawn') ∧
        (a < 2 ^ 31 → 2 ^ 31 ≤ b → p.backoff b drawn' ≤ p.backoff a drawn ∧
          (2 ≤ q → 1 ≤ p.initialMillis → p.initialMillis ≤ p.capMillis → p.backoff b drawn' < p.backoff a drawn)) := by
  have hone := Binary64.atLeastOne_of_value? hvalue hq
  rw [backoff_of_plain hjitter, backoff_of_plain hjitter]
  refine ⟨baseBackoff_le_cap hcap hone b, fun hside => ?_, fun ha hb' => ⟨?_, fun htwo hlow hhigh => ?_⟩⟩
  · refine baseBackoff_mono hcap hformat hone ?_
    rcases hside with hlt | hge
    · rw [signedWord_of_lt (by omega), signedWord_of_lt hlt]
      omega
    · rw [signedWord_of_le hge, signedWord_of_le (by omega)]
      omega
  · refine baseBackoff_mono hcap hformat hone ?_
    rw [signedWord_of_lt ha, signedWord_of_le hb']
    omega
  · have hbefore := initialMillis_le_baseBackoff hone hinitial hcap hhigh ha
    have hafter := baseBackoff_le_half hformat hvalue htwo hinitial hcap hb' hb
    omega

/-- The standard policy doubles up to two seconds and stays there up to the last number below `2^31`. -/
theorem backoff_ordered_standard : standard.jitter = false ∧ standard.multiplier.Canonical ∧
    standard.multiplier.value? = some 2 ∧ standard.initialMillis < 2 ^ 53 ∧ standard.capMillis < 2 ^ 53 ∧
      standard.backoff 2147483647 noDraw ≤ standard.capMillis ∧
        standard.backoff 3 noDraw ≤ standard.backoff 2147483647 noDraw := by
  -- the policy is a variable in the proof, or its multiplier would be computed
  generalize hp : standard = p
  have hmultiplier : p.multiplier = .ofNat 2 := by rw [← hp, standard]
  have hjitter : p.jitter = false := by rw [← hp, standard]
  have hformat : p.multiplier.Canonical := by
    rw [hmultiplier]
    generalize 2 = n
    exact Binary64.ofNat_canonical n
  have hvalue : p.multiplier.value? = some 2 := by
    rw [hmultiplier, Binary64.value?_ofNat (by decide), Nat.cast_ofNat]
  have hinitial : p.initialMillis < 2 ^ 53 := by
    rw [← hp]
    decide
  have hcap : p.capMillis < 2 ^ 53 := by
    rw [← hp]
    decide
  obtain ⟨hle, hside, -⟩ := backoff_ordered (a := 3) (b := 2147483647) hjitter hformat hvalue one_le_two hinitial hcap
    (by decide) (by decide) noDraw noDraw
  exact ⟨hjitter, hformat, hvalue, hinitial, hcap, hle, hside (.inl (by decide))⟩

/-- At `2^31` the exponent turns negative, and a wait of two seconds is followed by none at all. -/
theorem backoff_falls : standard.jitter = false ∧ standard.multiplier = .ofNat 2 ∧ standard.initialMillis = 100 ∧
    standard.capMillis = 2000 ∧ standard.backoff 2147483647 noDraw = 2000 ∧ standard.backoff 2147483648 noDraw = 0 := by
  decide +kernel

end

end RetryPolicy

end WalletTopUp
