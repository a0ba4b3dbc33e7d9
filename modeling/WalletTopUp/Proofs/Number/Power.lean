import Mathlib.Algebra.Order.Field.Basic
import Mathlib.Tactic.Linarith
import WalletTopUp.Proofs.Number.Order

/-!
# Powers by repeated squaring

Repeated squaring rounds at every step, and still a power of a whole number is the whole number itself as long as that
has 53 bits, and beyond them it is never below them (`Tracks.powerNat`): every product on the way is either exact or
already too large. Powers of a number that is not below one grow with the exponent, although they are rounded at
different places (`size_power_mono`): where the exponent carries, a product of smaller squares gives way to the next
square.
-/

namespace WalletTopUp

namespace Binary64

section
variable {n k v w : Nat} {x y a m m' : Binary64} {d e : Int}

/-! ## Repetitions of squaring -/

@[simp] theorem powerLoop_zero (m a : Binary64) : powerLoop m a 0 = m := by
  rw [powerLoop]
  rfl

/-- One repetition takes one bit of the exponent, whether another one follows or not. -/
theorem powerLoop_eq (m a : Binary64) (n : Nat) :
    powerLoop m a n = powerLoop (if n % 2 = 1 then m.mul a else m) (a.mul a) (n / 2) := by
  by_cases hlast : n / 2 = 0
  · rw [hlast, powerLoop_zero, powerLoop]
    simp only [dif_pos hlast]
  · conv => lhs; rw [powerLoop]
    simp only [dif_neg hlast]

/-! ## Whole numbers -/

theorem exists_ofNat_eq (hn : n < 2 ^ 53) : ∃ m g, ofNat n = finite false m g ∧ units m g = n * unitsPerOne := by
  rcases round_exact false hn (unitsPerOne_eq ▸ rfl : n * unitsPerOne = n * 2 ^ oneGrade) with ⟨-, hlarge⟩ | hfinite
  · have : 2 ^ 53 ≤ 2 ^ 64 := Nat.pow_le_pow_right (by decide) (by decide)
    omega
  · exact hfinite

theorem size_ofNat (hn : n < 2 ^ 53) : (ofNat n).size = (n * unitsPerOne : Nat) := by
  obtain ⟨m, g, heq, hunits⟩ := exists_ofNat_eq hn
  rw [heq, size, hunits]

/-! ## Powers of whole numbers -/

/-- A whole number is followed: exactly as long as it has 53 bits, and then by something that is not smaller. -/
structure Tracks (x : Binary64) (v : Nat) : Prop where
  exact : v < 2 ^ 53 → x.size = (v * unitsPerOne : Nat)
  large : 2 ^ 53 ≤ v → ((2 ^ 53 * unitsPerOne : Nat) : ℕ∞) ≤ x.size

theorem Tracks.le_size (h : x.Tracks v) : ((Min.min v (2 ^ 53) * unitsPerOne : Nat) : ℕ∞) ≤ x.size := by
  rcases Nat.lt_or_ge v (2 ^ 53) with hv | hv
  · rw [Nat.min_eq_left hv.le]
    exact (h.exact hv).ge
  · rw [Nat.min_eq_right hv]
    exact h.large hv

theorem Tracks.mul (hx : x.Tracks v) (hy : y.Tracks w) (hv : 1 ≤ v) (hw : 1 ≤ w) : (x.mul y).Tracks (v * w) := by
  constructor
  case exact =>
    intro hlt
    have hvlt : v < 2 ^ 53 := Nat.lt_of_le_of_lt (Nat.le_mul_of_pos_right v hw) hlt
    have hwlt : w < 2 ^ 53 := Nat.lt_of_le_of_lt (Nat.le_mul_of_pos_left w hv) hlt
    rw [unitsPerOne_eq]
    refine size_mul_of_eq hlt (lt_limit hlt (le_topGrade le_rfl)) (hx.exact hvlt) (hy.exact hwlt) ?_
    rw [← unitsPerOne_eq]
    ring
  case large =>
    intro hge
    have hcapped : 2 ^ 53 ≤ Min.min v (2 ^ 53) * Min.min w (2 ^ 53) := by
      rcases Nat.le_total v (2 ^ 53) with hvle | hvge
      · rcases Nat.le_total w (2 ^ 53) with hwle | hwge
        · rwa [Nat.min_eq_left hvle, Nat.min_eq_left hwle]
        · rw [Nat.min_eq_left hvle, Nat.min_eq_right hwge]
          exact Nat.le_mul_of_pos_left _ hv
      · rw [Nat.min_eq_right hvge]
        exact Nat.le_mul_of_pos_right _ (by omega)
    have hunits : 2 ^ 53 * unitsPerOne = 2 ^ 52 * 2 ^ (oneGrade + 1) := by
      rw [unitsPerOne_eq, Nat.pow_succ 2 oneGrade]
      omega
    rw [hunits]
    refine le_size_mul (by decide) hx.le_size hy.le_size ?_
    rw [← hunits]
    calc 2 ^ 53 * unitsPerOne * unitsPerOne ≤ Min.min v (2 ^ 53) * Min.min w (2 ^ 53) * unitsPerOne * unitsPerOne :=
          Nat.mul_le_mul_right _ (Nat.mul_le_mul_right _ hcapped)
      _ = Min.min v (2 ^ 53) * unitsPerOne * (Min.min w (2 ^ 53) * unitsPerOne) := by ring

theorem tracks_ofNat (hn : n < 2 ^ 53) : (ofNat n).Tracks n :=
  ⟨fun _ => size_ofNat hn, fun hge => absurd hn (Nat.not_lt.mpr hge)⟩

theorem Tracks.powerLoop (hx : x.Tracks v) (ha : a.Tracks w) (hv : 1 ≤ v) (hw : 1 ≤ w) (n : Nat) :
    (powerLoop x a n).Tracks (v * w ^ n) := by
  induction n using Nat.strongRecOn generalizing x a v w with
  | ind n ih =>
    by_cases hzero : n = 0
    · subst hzero
      rw [powerLoop_zero, Nat.pow_zero, Nat.mul_one]
      exact hx
    · have hhalf : n = n % 2 + 2 * (n / 2) := (Nat.mod_add_div n 2).symm
      have hsquare := ha.mul ha hw hw
      have hless : n / 2 < n := by omega
      rw [powerLoop_eq]
      rcases Nat.mod_two_eq_zero_or_one n with heven | hodd
      · have hpower : v * w ^ n = v * (w * w) ^ (n / 2) := by
          conv => lhs; rw [hhalf, heven, Nat.zero_add, Nat.pow_mul, Nat.pow_two]
        rw [if_neg (by omega), hpower]
        exact ih _ hless hx hsquare hv (Nat.mul_pos hw hw)
      · have hpower : v * w ^ n = v * w * (w * w) ^ (n / 2) := by
          conv => lhs; rw [hhalf, hodd, Nat.pow_add, Nat.pow_one, Nat.pow_mul, Nat.pow_two, ← Nat.mul_assoc]
        rw [if_pos hodd, hpower]
        exact ih _ hless (hx.mul ha hv hw) hsquare (Nat.mul_pos hv hw) (Nat.mul_pos hw hw)

/-- Powers of a whole number are followed by rounded powers. -/
theorem Tracks.powerNat (ha : a.Tracks w) (hw : 1 ≤ w) (n : Nat) : (powerNat a n).Tracks (w ^ n) := by
  have hpower := (tracks_ofNat (by decide)).powerLoop ha (Nat.le_refl 1) hw n
  rwa [Nat.one_mul] at hpower

/-! ## Numbers that are not below one -/

/-- The number is one or more, an infinity perhaps. -/
structure AtLeastOne (x : Binary64) : Prop where
  nonNeg : x.NonNeg
  one_le : (unitsPerOne : ℕ∞) ≤ x.size

theorem unitsPerOne_eq_mul : unitsPerOne = 1 * 2 ^ oneGrade := by
  rw [unitsPerOne_eq, Nat.one_mul]

theorem ofNat_nonNeg (n : Nat) : (ofNat n).NonNeg := by
  rw [ofNat]
  exact round_nonNeg n 1

theorem atLeastOne_one : (ofNat 1).AtLeastOne := by
  constructor
  case nonNeg => exact ofNat_nonNeg 1
  case one_le =>
    rw [size_ofNat (by decide), Nat.one_mul]

theorem AtLeastOne.mul (hx : x.AtLeastOne) (hy : y.AtLeastOne) : (x.mul y).AtLeastOne := by
  have hpos : (unitsPerOne : ℕ∞) ≠ 0 := Nat.cast_ne_zero.mpr unitsPerOne_pos.ne'
  constructor
  case nonNeg =>
    rcases mul_nonNeg hx.nonNeg hy.nonNeg with hmul | ⟨-, hzero | hzero⟩
    · exact hmul
    · exact absurd (le_zero_iff.mp (hzero ▸ hx.one_le)) hpos
    · exact absurd (le_zero_iff.mp (hzero ▸ hy.one_le)) hpos
  case one_le =>
    rw [unitsPerOne_eq_mul]
    refine le_size_mul (by decide) hx.one_le hy.one_le ?_
    rw [← unitsPerOne_eq_mul]

theorem AtLeastOne.powerLoop (hx : x.AtLeastOne) (ha : a.AtLeastOne) (n : Nat) : (powerLoop x a n).AtLeastOne := by
  induction n using Nat.strongRecOn generalizing x a with
  | ind n ih =>
    by_cases hzero : n = 0
    · subst hzero
      rwa [powerLoop_zero]
    · rw [powerLoop_eq]
      refine ih _ (by omega) ?_ (ha.mul ha)
      split_ifs
      · exact hx.mul ha
      · exact hx

theorem AtLeastOne.powerNat (ha : a.AtLeastOne) (n : Nat) : (powerNat a n).AtLeastOne :=
  atLeastOne_one.powerLoop ha n

/-! ## Numbers by their value -/

theorem exists_units_of_value? {q : ℚ} (h : x.value? = some q) (hq : 1 ≤ q) :
    ∃ m g, x = finite false m g ∧ (units m g : ℚ) = q * unitsPerOne := by
  have hpos : (0 : ℚ) < unitsPerOne := by exact_mod_cast unitsPerOne_pos
  cases x with
  | finite negative m g =>
    obtain rfl : (signedUnits negative m g : ℚ) / unitsPerOne = q := Option.some.inj h
    cases negative with
    | false => exact ⟨m, g, rfl, (div_mul_cancel₀ _ hpos.ne').symm⟩
    | true =>
      have hneg : (signedUnits true m g : ℚ) ≤ 0 := by simp [signedUnits]
      rw [le_div_iff₀ hpos, one_mul] at hq
      linarith
  | _ => cases h

theorem le_size_of_value? {q : ℚ} (h : x.value? = some q) (hq : 1 ≤ q) (hk : k ≤ q) :
    ((k * unitsPerOne : Nat) : ℕ∞) ≤ x.size := by
  obtain ⟨m, g, rfl, hunits⟩ := exists_units_of_value? h hq
  have hle : ((k * unitsPerOne : Nat) : ℚ) ≤ (units m g : Nat) := by
    rw [hunits, Nat.cast_mul]
    exact mul_le_mul_of_nonneg_right hk (Nat.cast_nonneg _)
  rw [size, Nat.cast_le]
  exact Nat.cast_le.mp hle

theorem atLeastOne_of_value? {q : ℚ} (h : x.value? = some q) (hq : 1 ≤ q) : x.AtLeastOne := by
  constructor
  case nonNeg =>
    obtain ⟨m, g, rfl, -⟩ := exists_units_of_value? h hq
    exact .finite m g
  case one_le =>
    rw [← Nat.one_mul unitsPerOne]
    exact le_size_of_value? h hq (by rwa [Nat.cast_one])

theorem tracks_of_value? (h : x.value? = some (k : ℚ)) (hk : 1 ≤ k) : x.Tracks k := by
  obtain ⟨m, g, rfl, hunits⟩ := exists_units_of_value? h (by exact_mod_cast hk)
  have hunits' : units m g = k * unitsPerOne := by exact_mod_cast hunits
  constructor
  case exact =>
    intro _
    rw [size, hunits']
  case large =>
    intro hge
    rw [size, hunits', Nat.cast_le]
    exact Nat.mul_le_mul_right _ hge

theorem value?_ofNat (hn : n < 2 ^ 53) : (ofNat n).value? = some (n : ℚ) := by
  obtain ⟨m, g, heq, hunits⟩ := exists_ofNat_eq hn
  have hpos : (unitsPerOne : ℚ) ≠ 0 := by exact_mod_cast unitsPerOne_pos.ne'
  have hsigned : (signedUnits false m g : ℚ) = n * unitsPerOne := by
    rw [signedUnits, if_neg Bool.false_ne_true, hunits]
    push_cast
    rfl
  rw [heq, value?, hsigned, mul_div_cancel_right₀ _ hpos]

/-! ## Powers grow with the exponent -/

theorem size_powerLoop_mono (h : m.size ≤ m'.size) (a : Binary64) (n : Nat) :
    (powerLoop m a n).size ≤ (powerLoop m' a n).size := by
  induction n using Nat.strongRecOn generalizing m m' a with
  | ind n ih =>
    by_cases hzero : n = 0
    · subst hzero
      rwa [powerLoop_zero, powerLoop_zero]
    · rw [powerLoop_eq, powerLoop_eq m']
      refine ih _ (by omega) ?_ _
      split_ifs
      · exact size_mul_mono h le_rfl
      · exact h

/-- A number of the format is not lost when it is multiplied by one. -/
theorem size_le_size_one_mul (ha : a.Canonical) : a.size ≤ ((ofNat 1).mul a).size := by
  cases a with
  | finite s m g =>
    rw [size, units_eq]
    refine le_size_mul ha atLeastOne_one.one_le le_rfl ?_
    rw [units_eq, Nat.mul_comm]
  | _ =>
    rw [size_mul_of_top (.inr rfl)]
    exact le_top

/-- As long as the exponent carries, what has been gathered is not above the next square. -/
theorem size_powerLoop_le_succ (ha : a.Canonical) (h : m.size ≤ a.size) (n : Nat) :
    (powerLoop m a n).size ≤ (powerLoop (ofNat 1) a (n + 1)).size := by
  induction n using Nat.strongRecOn generalizing m a with
  | ind n ih =>
    rw [powerLoop_eq, powerLoop_eq _ _ (n + 1)]
    rcases Nat.mod_two_eq_zero_or_one n with heven | hodd
    · rw [if_neg (by omega), if_pos (by omega), show (n + 1) / 2 = n / 2 by omega]
      exact size_powerLoop_mono (le_trans h (size_le_size_one_mul ha)) _ _
    · rw [if_pos hodd, if_neg (by omega), show (n + 1) / 2 = n / 2 + 1 by omega]
      exact ih _ (by omega) (mul_canonical a a) (size_mul_mono h le_rfl)

theorem size_powerNat_mono (ha : a.Canonical) (hone : a.AtLeastOne) : Monotone fun n => (powerNat a n).size := by
  have hstart : (ofNat 1).size ≤ a.size := by
    rw [size_ofNat (by decide), Nat.one_mul]
    exact hone.one_le
  exact monotone_nat_of_le_succ fun n => size_powerLoop_le_succ ha hstart n

/-! ## Reciprocals -/

theorem one_div_cases (hx : x.AtLeastOne) : x.size = ⊤ ∧ (ofNat 1).div x = zero false ∨
    ∃ u : Nat, 0 < u ∧ x.size = u ∧ (ofNat 1).div x = round false unitsPerOne u := by
  obtain ⟨m₁, g₁, hone, hunits₁⟩ := exists_ofNat_eq (show 1 < 2 ^ 53 by decide)
  rw [hone]
  obtain ⟨hnonNeg, hone_le⟩ := hx
  cases hnonNeg with
  | infinite => exact .inl ⟨rfl, rfl⟩
  | finite m g =>
    have hpos : 0 < units m g := Nat.lt_of_lt_of_le unitsPerOne_pos (Nat.cast_le.mp hone_le)
    have hm : m ≠ 0 := by
      rintro rfl
      rw [units_eq, Nat.zero_mul] at hpos
      exact absurd hpos (Nat.lt_irrefl 0)
    refine .inr ⟨units m g, hpos, rfl, ?_⟩
    rw [div, if_neg hm, hunits₁, Nat.one_mul, bne_self_eq_false]

theorem one_div_nonNeg (hx : x.AtLeastOne) : ((ofNat 1).div x).NonNeg := by
  rcases one_div_cases hx with ⟨-, heq⟩ | ⟨u, -, -, heq⟩
  · rw [heq]
    exact .finite 0 0
  · rw [heq]
    exact round_nonNeg _ u

theorem size_one_div_anti (hx : x.AtLeastOne) (hy : y.AtLeastOne) (h : x.size ≤ y.size) :
    ((ofNat 1).div y).size ≤ ((ofNat 1).div x).size := by
  rcases one_div_cases hy with ⟨-, heq⟩ | ⟨u, hu, hsize, heq⟩
  · rw [heq, zero, size, units_eq, Nat.zero_mul]
    exact zero_le
  · rcases one_div_cases hx with ⟨htop, -⟩ | ⟨v, hv, hsize', heq'⟩
    · rw [htop, hsize, top_le_iff] at h
      exact absurd h (ENat.natCast_ne_top u)
    · rw [hsize, hsize', Nat.cast_le] at h
      rw [heq, heq']
      exact size_round_mono hu hv (Nat.mul_le_mul_left _ h)

theorem size_one_div_le {k : Nat} (hk : k ≤ oneGrade) (hx : x.AtLeastOne)
    (h : ((2 ^ k * unitsPerOne : Nat) : ℕ∞) ≤ x.size) : ((ofNat 1).div x).size ≤ (2 ^ (oneGrade - k) : Nat) := by
  rcases one_div_cases hx with ⟨-, heq⟩ | ⟨u, hu, hsize, heq⟩
  · rw [heq, zero, size, units_eq, Nat.zero_mul]
    exact zero_le
  · rw [hsize, Nat.cast_le] at h
    rw [heq, ← Nat.one_mul (2 ^ (oneGrade - k))]
    refine size_round_le _ (by decide) (lt_limit (by decide) (le_topGrade (Nat.sub_le _ _))) hu ?_
    calc unitsPerOne * unitsPerOne = 1 * 2 ^ (oneGrade - k) * (2 ^ k * unitsPerOne) := by
          rw [Nat.one_mul, ← Nat.mul_assoc, Nat.mul_comm _ (2 ^ k), two_pow_mul_unit hk]
      _ ≤ 1 * 2 ^ (oneGrade - k) * u := Nat.mul_le_mul_left _ h

/-! ## Integer powers -/

theorem power_nonNeg (ha : a.AtLeastOne) (e : Int) : (a.power e).NonNeg := by
  unfold power
  split_ifs
  · exact one_div_nonNeg (ha.powerNat _)
  · exact (ha.powerNat _).nonNeg

theorem one_le_size_power (hone : a.AtLeastOne) (he : 0 ≤ e) : (unitsPerOne : ℕ∞) ≤ (a.power e).size := by
  rw [power, if_neg (by omega)]
  exact (hone.powerNat _).one_le

theorem size_power_neg_le (ha : a.Canonical) (hone : a.AtLeastOne) (hk : k ≤ oneGrade)
    (h : ((2 ^ k * unitsPerOne : Nat) : ℕ∞) ≤ a.size) (he : e < 0) : (a.power e).size ≤ (2 ^ (oneGrade - k) : Nat) := by
  have hfirst : a.size ≤ (powerNat a 1).size := by
    rw [powerNat, powerLoop_eq, if_pos (by decide), powerLoop_zero]
    exact size_le_size_one_mul ha
  have hmono : (powerNat a 1).size ≤ (powerNat a e.natAbs).size := size_powerNat_mono ha hone (by omega)
  rw [power, if_pos he]
  exact size_one_div_le hk (hone.powerNat _) (h.trans (hfirst.trans hmono))

/-- Powers with integer exponents grow with the exponent. -/
theorem size_power_mono (ha : a.Canonical) (hone : a.AtLeastOne) (h : d ≤ e) : (a.power d).size ≤ (a.power e).size := by
  have hmono := size_powerNat_mono ha hone
  rcases lt_or_ge d 0 with hd | hd
  · rcases lt_or_ge e 0 with he | he
    · rw [power, power, if_pos hd, if_pos he]
      exact size_one_div_anti (hone.powerNat _) (hone.powerNat _) (hmono (by omega))
    · have hle : ((2 ^ 0 * unitsPerOne : Nat) : ℕ∞) ≤ a.size := by
        rw [Nat.pow_zero, Nat.one_mul]
        exact hone.one_le
      have hbelow := size_power_neg_le ha hone (Nat.zero_le _) hle hd
      rw [Nat.sub_zero, ← unitsPerOne_eq] at hbelow
      exact hbelow.trans (one_le_size_power hone he)
  · rw [power, power, if_neg (by omega), if_neg (by omega)]
    exact hmono (by omega)

end

end Binary64

end WalletTopUp
