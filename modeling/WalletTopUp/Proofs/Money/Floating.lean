import WalletTopUp.Money.Floating
import WalletTopUp.Proofs.Money.Difference

/-!
# Amounts that are stated in floating point

There is an amount for every finite number up to `2^96`, and for no other (`isSome_ofBinary64?_iff`). It has the sign
of the number, a whole number below the limit is kept as it is, and otherwise no more is lost than the format
promises: a part of `2^-49`, and what is beyond the largest scale (`stands_of_ofBinary64?`). The number is expanded in
96 bits, of which only the lowest is ever given up (`halve_near`). Then digits are dropped one by one, each rounded
half up, and the errors of all these roundings stay below `5/9` of the last place that is left (`dropExcess_near`).
-/

namespace WalletTopUp

namespace Binary64

/-- The number is below zero, or the zero below. -/
def IsNegative : Binary64 → Prop
  | finite negative _ _ => negative = true
  | infinite negative => negative = true
  | nan => False

/-- The number is finite and not beyond the limit of the amounts. -/
def InRange (x : Binary64) : Prop := ∃ q, x.value? = some q ∧ |q| ≤ 2 ^ 96

end Binary64

namespace Decimal
open Binary64 (oneGrade oneGrade_eq)

/-- The amount is what a floating-point number says of money. -/
structure Stands (x : Binary64) (a : Decimal) : Prop where
  sign : a.negative = true ↔ x.IsNegative
  near : ∀ q, x.value? = some q → |a.value - q| ≤ |q| / 2 ^ 49 + 1 / 10 ^ 28
  /-- Whole numbers that fit are kept. -/
  whole : ∀ n : Int, x.value? = some (n : ℚ) → |n| < 2 ^ 96 → a.value = n
  /-- Otherwise an amount has no more than 52 bits. -/
  digits : a.magnitude < 2 ^ 52 ∨ a.scale = 0

/-- The rational number of a coefficient with so many places. -/
def parts (p : Nat × Nat) : ℚ := p.1 / 10 ^ p.2

theorem limit_eq : limit = 2 ^ 96 := rfl

theorem parts_nonneg (p : Nat × Nat) : 0 ≤ parts p := by
  unfold parts
  positivity

section
variable {m g n bits places : Nat} {negative : Bool}

/-! ## Halving -/

theorem halve_lt (h : bits < limit) : (halve n bits places).1 < limit := by
  induction n generalizing bits places with
  | zero => exact h
  | succ n ih =>
    unfold halve
    split_ifs with heven hfits
    · exact ih (by omega)
    · exact ih hfits
    · exact ih (by omega)

theorem halve_mul (k n places : Nat) : halve n (k * 2 ^ n) places = (k, places) := by
  induction n with
  | zero => rw [pow_zero, Nat.mul_one]; rfl
  | succ n ih =>
    have hdouble : k * 2 ^ (n + 1) = 2 * (k * 2 ^ n) := by ring
    rw [halve, hdouble, if_pos (Nat.mul_mod_right _ _), Nat.mul_div_cancel_left _ (by decide), ih]

/-- Halving only ever loses something, and each time less than a part of `5 / 2^96`. -/
theorem halve_near (n bits places : Nat) :
    parts (halve n bits places) ≤ bits / (2 ^ n * 10 ^ places) ∧
      bits / (2 ^ n * 10 ^ places) - parts (halve n bits places) ≤
        bits / (2 ^ n * 10 ^ places) * (5 * n / 2 ^ 96) := by
  induction n generalizing bits places with
  | zero => simp [halve, parts]
  | succ n ih =>
    have hstep {k s : Nat} (hsame : (k : ℚ) / (2 ^ n * 10 ^ s) = bits / (2 ^ (n + 1) * 10 ^ places)) :
        parts (halve n k s) ≤ bits / (2 ^ (n + 1) * 10 ^ places) ∧
          bits / (2 ^ (n + 1) * 10 ^ places) - parts (halve n k s) ≤
            bits / (2 ^ (n + 1) * 10 ^ places) * (5 * (n + 1 : Nat) / 2 ^ 96) := by
      obtain ⟨hle, hnear⟩ := ih k s
      rw [hsame] at hle hnear
      refine ⟨hle, hnear.trans (mul_le_mul_of_nonneg_left ?_ (by positivity))⟩
      push_cast
      linarith
    unfold halve
    split_ifs with heven hfits
    · obtain ⟨k, rfl⟩ := Nat.dvd_of_mod_eq_zero heven
      rw [Nat.mul_div_cancel_left _ (by decide)]
      refine hstep ?_
      push_cast
      field_simp
      ring
    · refine hstep ?_
      push_cast
      field_simp
      ring
    · -- the lowest bit is lost, and the coefficient is so large that this is little
      obtain ⟨hle, hnear⟩ := ih (bits / 2) places
      have hodd : (bits : ℚ) = 2 * (bits / 2 : Nat) + 1 := by exact_mod_cast (by omega : bits = 2 * (bits / 2) + 1)
      have hlarge : (2 : ℚ) ^ 96 ≤ 5 * bits := by
        rw [limit_eq] at hfits
        exact_mod_cast Nat.le_of_not_lt hfits
      have hlost : (bits : ℚ) / (2 ^ (n + 1) * 10 ^ places) - (bits / 2 : Nat) / (2 ^ n * 10 ^ places) =
          1 / (2 ^ (n + 1) * 10 ^ places) := by
        rw [hodd]
        field_simp
        ring
      have hpart : (1 : ℚ) / (2 ^ (n + 1) * 10 ^ places) ≤ bits / (2 ^ (n + 1) * 10 ^ places) * (5 / 2 ^ 96) := by
        rw [div_mul_eq_mul_div, div_le_div_iff_of_pos_right (by positivity)]
        linarith
      have hbelow : ((bits / 2 : Nat) : ℚ) / (2 ^ n * 10 ^ places) ≤ bits / (2 ^ (n + 1) * 10 ^ places) := by
        have hpos : (0 : ℚ) < 1 / (2 ^ (n + 1) * 10 ^ places) := by positivity
        linarith
      have hscaled := mul_le_mul_of_nonneg_right hbelow (show (0 : ℚ) ≤ 5 * n / 2 ^ 96 by positivity)
      refine ⟨hle.trans hbelow, ?_⟩
      push_cast
      linarith

/-! ## Dropping digits -/

theorem dropDigit_bounds (bits : Nat) : bits ≤ 10 * dropDigit bits + 4 ∧ 10 * dropDigit bits ≤ bits + 5 := by
  unfold dropDigit
  split_ifs <;> omega

theorem dropDigit_le (bits : Nat) : dropDigit bits ≤ bits := by
  unfold dropDigit
  split_ifs <;> omega

theorem parts_dropDigit_near (bits places : Nat) :
    |parts (dropDigit bits, places) - parts (bits, places + 1)| ≤ 1 / 2 / 10 ^ places := by
  obtain ⟨hlow, hhigh⟩ := dropDigit_bounds bits
  have hlow' : (bits : ℚ) ≤ 10 * dropDigit bits + 4 := by exact_mod_cast hlow
  have hhigh' : (10 * dropDigit bits : ℚ) ≤ bits + 5 := by exact_mod_cast hhigh
  have hdiff : parts (dropDigit bits, places) - parts (bits, places + 1) =
      (dropDigit bits - bits / 10) / 10 ^ places := by
    unfold parts
    rw [pow_succ]
    field_simp
  rw [hdiff, abs_div, abs_of_pos (show (0 : ℚ) < 10 ^ places by positivity),
    div_le_div_iff_of_pos_right (by positivity), abs_le]
  constructor <;> linarith

theorem dropBeyondScale_of_le (h : places ≤ maxScale) : dropBeyondScale places bits = (bits, places) := by
  cases places with
  | zero => rfl
  | succ places => rw [dropBeyondScale, if_pos h]

theorem dropBeyondScale_places (places bits : Nat) : (dropBeyondScale places bits).2 ≤ maxScale := by
  induction places generalizing bits with
  | zero => exact Nat.zero_le _
  | succ places ih =>
    unfold dropBeyondScale
    split_ifs with hscale hdigit
    · exact hscale
    · exact Nat.zero_le _
    · exact ih _

theorem dropBeyondScale_bits (places bits : Nat) : (dropBeyondScale places bits).1 ≤ bits := by
  induction places generalizing bits with
  | zero => exact le_rfl
  | succ places ih =>
    unfold dropBeyondScale
    split_ifs with hscale hdigit
    · exact le_rfl
    · exact Nat.zero_le _
    · exact (ih _).trans (dropDigit_le bits)

theorem dropBeyondScale_near (h : maxScale ≤ places) (bits : Nat) :
    |parts (dropBeyondScale places bits) - parts (bits, places)| ≤ 1 / 10 ^ maxScale - 1 / 10 ^ places := by
  induction places, h using Nat.le_induction generalizing bits with
  | base => simp [dropBeyondScale_of_le]
  | succ places hle ih =>
    have hpow : (10 : ℚ) ^ (places + 1) = 10 * 10 ^ places := by ring
    rw [dropBeyondScale, if_neg (by omega)]
    split_ifs with hdigit
    · have hsmall : (bits : ℚ) ≤ 9 := by exact_mod_cast (by omega : bits ≤ 9)
      have hunit : (1 : ℚ) / 10 ^ places ≤ 1 / 10 ^ maxScale :=
        one_div_le_one_div_of_le (by positivity) (pow_le_pow_right₀ (by norm_num) hle)
      have hvalue : parts (bits, places + 1) ≤ 9 / 10 ^ (places + 1) := by
        unfold parts
        gcongr
      have hten : (9 : ℚ) / 10 ^ (places + 1) = 1 / 10 ^ places - 1 / 10 ^ (places + 1) := by
        rw [hpow]
        field_simp
        norm_num
      have hnothing : parts (0, 0) = 0 := by simp [parts]
      rw [hnothing, zero_sub, abs_neg, abs_of_nonneg (parts_nonneg _)]
      linarith
    · have hrest := ih (dropDigit bits)
      have hfirst := parts_dropDigit_near bits places
      have htotal := abs_sub_le (parts (dropBeyondScale places (dropDigit bits))) (parts (dropDigit bits, places))
        (parts (bits, places + 1))
      have hten : (1 : ℚ) / 2 / 10 ^ places ≤ 1 / 10 ^ places - 1 / 10 ^ (places + 1) := by
        rw [hpow, div_div, ← sub_nonneg]
        have hpos : (0 : ℚ) < 10 ^ places := by positivity
        field_simp
        norm_num
      linarith

section
variable (more : Nat → Bool) (places bits : Nat)

theorem dropWhile_places : (dropWhile more places bits).2 ≤ places := by
  induction places generalizing bits with
  | zero => exact le_rfl
  | succ places ih =>
    unfold dropWhile
    split_ifs with hmore
    · exact (ih _).trans (Nat.le_succ _)
    · exact le_rfl

theorem dropWhile_bits : (dropWhile more places bits).1 ≤ bits := by
  induction places generalizing bits with
  | zero => exact le_rfl
  | succ places ih =>
    unfold dropWhile
    split_ifs with hmore
    · exact (ih _).trans (dropDigit_le bits)
    · exact le_rfl

theorem dropWhile_ends : more (dropWhile more places bits).1 = false ∨ (dropWhile more places bits).2 = 0 := by
  induction places generalizing bits with
  | zero => exact .inr rfl
  | succ places ih =>
    unfold dropWhile
    split_ifs with hmore
    · exact ih _
    · exact .inl (eq_false_of_ne_true hmore)

/-- The errors of the roundings add up to less than `5/9` of the last place that is left. -/
theorem dropWhile_near : |parts (dropWhile more places bits) - parts (bits, places)| ≤
    5 / 9 * (1 / 10 ^ (dropWhile more places bits).2 - 1 / 10 ^ places) := by
  induction places generalizing bits with
  | zero => simp [dropWhile]
  | succ places ih =>
    unfold dropWhile
    split_ifs with hmore
    · have hrest := ih (dropDigit bits)
      have hfirst := parts_dropDigit_near bits places
      have htotal := abs_sub_le (parts (dropWhile more places (dropDigit bits))) (parts (dropDigit bits, places))
        (parts (bits, places + 1))
      have hten : (1 : ℚ) / 10 ^ (places + 1) = 1 / 10 * (1 / 10 ^ places) := by
        rw [pow_succ]
        field_simp
      have hhalf : (1 : ℚ) / 2 / 10 ^ places = 1 / 2 * (1 / 10 ^ places) := by ring
      rw [hten]
      rw [hhalf] at hfirst
      linarith
    · simp

end

theorem dropExcess_cases (places bits : Nat) :
    dropExcess places bits = (bits, places) ∨ 2 ^ 52 ≤ bits ∧ 2 ^ 52 ≤ 10 * (dropExcess places bits).1 + 4 := by
  unfold dropExcess
  induction places generalizing bits with
  | zero => exact .inl rfl
  | succ places ih =>
    unfold dropWhile
    split_ifs with hexcess
    · have hlarge : 2 ^ 52 ≤ bits := of_decide_eq_true hexcess
      refine .inr ⟨hlarge, ?_⟩
      rcases ih (dropDigit bits) with hsame | ⟨-, hkept⟩
      · rw [hsame]
        exact hlarge.trans (dropDigit_bounds bits).1
      · exact hkept
    · exact .inl rfl

/-- Giving up digits in excess of 52 bits costs less than a part of `6 / 2^52`. -/
theorem dropExcess_near (places bits : Nat) :
    |parts (dropExcess places bits) - parts (bits, places)| ≤ parts (bits, places) * (6 / 2 ^ 52) := by
  rcases dropExcess_cases places bits with hsame | ⟨-, hkept⟩
  · rw [hsame, sub_self, abs_zero]
    exact mul_nonneg (parts_nonneg _) (by positivity)
  have hnear : |parts (dropExcess places bits) - parts (bits, places)| ≤ _ := dropWhile_near _ places bits
  have hkept' : (2 : ℚ) ^ 52 ≤ 10 * (dropExcess places bits).1 + 4 := by exact_mod_cast hkept
  have hunit : (dropWhile (fun bits => Nat.pow 2 52 ≤ bits) places bits).2 = (dropExcess places bits).2 := rfl
  rw [hunit] at hnear
  generalize dropExcess places bits = kept at hnear hkept'
  have hpos : (0 : ℚ) < 1 / 10 ^ kept.2 := by positivity
  have hpos' : (0 : ℚ) < 1 / 10 ^ places := by positivity
  have hvalue : parts kept = kept.1 * (1 / 10 ^ kept.2) := by rw [parts, mul_one_div]
  rw [hvalue] at hnear ⊢
  generalize (1 : ℚ) / 10 ^ kept.2 = unit at hnear hpos
  have hscaled := mul_le_mul_of_nonneg_right hkept' hpos.le
  have hlow := (abs_le.mp hnear).2
  linarith

theorem dropDigit_mul (k : Nat) : dropDigit (10 * k) = k := by
  unfold dropDigit
  split_ifs <;> omega

theorem parts_dropZeros (places bits : Nat) : parts (dropZeros places bits) = parts (bits, places) := by
  unfold dropZeros
  induction places generalizing bits with
  | zero => rfl
  | succ places ih =>
    unfold dropWhile
    split_ifs with hzero
    · obtain ⟨k, rfl⟩ := Nat.dvd_of_mod_eq_zero (of_decide_eq_true hzero)
      rw [ih, dropDigit_mul, parts, parts, pow_succ]
      push_cast
      field_simp
    · rfl

/-! ## Numbers below `2^53` -/

/-- The coefficient and the places that are kept of `m / 2^n`. -/
def kept (m n : Nat) : Nat × Nat :=
  let expanded := halve n m 0
  let scaled := dropBeyondScale expanded.2 expanded.1
  let short := dropExcess scaled.2 scaled.1
  dropZeros short.2 short.1

theorem kept_mul (k n : Nat) : kept (k * 2 ^ n) n = (k, 0) := by
  simp only [kept, halve_mul]
  rfl

theorem kept_fits (hm : m < limit) (n : Nat) : (kept m n).2 ≤ maxScale ∧ (kept m n).1 < limit := by
  unfold kept
  dsimp only
  have hexpanded : (halve n m 0).1 < limit := halve_lt hm
  generalize halve n m 0 = expanded at hexpanded
  have hscaled := dropBeyondScale_places expanded.2 expanded.1
  have hscaledBits := dropBeyondScale_bits expanded.2 expanded.1
  generalize dropBeyondScale expanded.2 expanded.1 = scaled at hscaled hscaledBits
  have hshort : (dropExcess scaled.2 scaled.1).2 ≤ scaled.2 := dropWhile_places _ _ _
  have hshortBits : (dropExcess scaled.2 scaled.1).1 ≤ scaled.1 := dropWhile_bits _ _ _
  generalize dropExcess scaled.2 scaled.1 = short at hshort hshortBits
  have hplaces : (dropZeros short.2 short.1).2 ≤ short.2 := dropWhile_places _ _ _
  have hbits : (dropZeros short.2 short.1).1 ≤ short.1 := dropWhile_bits _ _ _
  exact ⟨by omega, by omega⟩

theorem kept_digits (m n : Nat) : (kept m n).1 < 2 ^ 52 ∨ (kept m n).2 = 0 := by
  unfold kept
  dsimp only
  generalize dropBeyondScale (halve n m 0).2 (halve n m 0).1 = scaled
  have hends := dropWhile_ends (fun bits => Nat.pow 2 52 ≤ bits) scaled.2 scaled.1
  change _ ∨ (dropExcess scaled.2 scaled.1).2 = 0 at hends
  change decide (2 ^ 52 ≤ (dropExcess scaled.2 scaled.1).1) = false ∨ _ at hends
  generalize dropExcess scaled.2 scaled.1 = short at hends
  have hplaces : (dropZeros short.2 short.1).2 ≤ short.2 := dropWhile_places _ _ _
  have hbits : (dropZeros short.2 short.1).1 ≤ short.1 := dropWhile_bits _ _ _
  rcases hends with hsmall | hnone
  · have hlt := of_decide_eq_false hsmall
    exact .inl (by omega)
  · exact .inr (by omega)

theorem kept_near (m : Nat) (hn : n ≤ 1074) :
    |parts (kept m n) - m / 2 ^ n| ≤ m / 2 ^ n / 2 ^ 49 + 1 / 10 ^ 28 := by
  obtain ⟨hbelow, hexpanded⟩ := halve_near n m 0
  rw [pow_zero, mul_one] at hbelow hexpanded
  unfold kept
  dsimp only
  rw [parts_dropZeros]
  generalize halve n m 0 = expanded at hbelow hexpanded
  have hplaces := dropBeyondScale_places expanded.2 expanded.1
  have hscaled : |parts (dropBeyondScale expanded.2 expanded.1) - parts expanded| ≤ 1 / 10 ^ 28 := by
    rcases Nat.le_total expanded.2 maxScale with hle | hle
    · rw [dropBeyondScale_of_le hle, sub_self, abs_zero]
      positivity
    · refine (dropBeyondScale_near hle expanded.1).trans ?_
      have hpos : (0 : ℚ) < 1 / 10 ^ expanded.2 := by positivity
      rw [maxScale]
      linarith
  generalize dropBeyondScale expanded.2 expanded.1 = scaled at hplaces hscaled
  have hshort := dropExcess_near scaled.2 scaled.1
  change |parts (dropExcess scaled.2 scaled.1) - _| ≤ _
  have hcases : parts (dropExcess scaled.2 scaled.1) = parts scaled ∨ 2 ^ 52 * (1 / 10 ^ 28) ≤ parts scaled := by
    rcases dropExcess_cases scaled.2 scaled.1 with hsame | ⟨hlarge, -⟩
    · exact .inl (congrArg parts hsame)
    · refine .inr ?_
      have hlarge' : (2 : ℚ) ^ 52 ≤ scaled.1 := by exact_mod_cast hlarge
      have hunit : (1 : ℚ) / 10 ^ 28 ≤ 1 / 10 ^ scaled.2 :=
        one_div_le_one_div_of_le (by positivity) (pow_le_pow_right₀ (by norm_num) hplaces)
      rw [parts, ← mul_one_div (scaled.1 : ℚ)]
      exact mul_le_mul hlarge' hunit (by positivity) (by positivity)
  change |parts (dropExcess scaled.2 scaled.1) - parts scaled| ≤ parts scaled * _ at hshort
  have hx : (0 : ℚ) ≤ m / 2 ^ n := by positivity
  have hfew : (m / 2 ^ n : ℚ) * (5 * n / 2 ^ 96) ≤ m / 2 ^ n * (5370 / 2 ^ 96) := by
    have hn' : (n : ℚ) ≤ 1074 := by exact_mod_cast hn
    refine mul_le_mul_of_nonneg_left ?_ hx
    rw [div_le_div_iff_of_pos_right (by positivity)]
    linarith
  generalize (m / 2 ^ n : ℚ) = x at *
  generalize (1 / 10 ^ 28 : ℚ) = unit at *
  generalize parts (dropExcess scaled.2 scaled.1) = short at *
  generalize parts scaled = scaled at *
  generalize parts expanded = expanded at *
  rw [abs_le] at hscaled hshort ⊢
  rcases hcases with rfl | hlarge
  · constructor <;> linarith
  · constructor <;> linarith

/-! ## Numbers from `2^53` on -/

theorem double_of_lt {tens : Nat} (h : bits * 2 ^ n < limit) : double n bits tens = (bits * 2 ^ n, tens) := by
  induction n generalizing bits with
  | zero => rw [pow_zero, Nat.mul_one]; rfl
  | succ n ih =>
    have hstep : 2 * bits * 2 ^ n = bits * 2 ^ (n + 1) := by ring
    have hpos : 0 < 2 ^ n := Nat.two_pow_pos n
    have htwice : 2 * bits ≤ 2 * bits * 2 ^ n := Nat.le_mul_of_pos_right _ hpos
    rw [limit_eq] at h
    rw [double, limit_eq, if_pos (by omega), ih (by rw [hstep, limit_eq]; exact h), hstep]

theorem double_lt {tens : Nat} (h : bits < limit) : (double n bits tens).1 < limit := by
  induction n generalizing bits tens with
  | zero => exact h
  | succ n ih =>
    unfold double
    split_ifs with hsmall
    · exact ih (by omega)
    · exact ih (by omega)

/-- Once a fifth has been taken, the coefficient stays so large that two powers of ten are too many, and one is when
what is left to be doubled says so. -/
theorem le_double {tens : Nat} (htens : 1 ≤ tens) (hbits : 2 ^ 92 ≤ bits)
    (h : 2 ≤ tens ∨ limit ≤ 10 * (bits * 2 ^ n)) :
    limit ≤ (double n bits tens).1 * 10 ^ (double n bits tens).2 := by
  induction n generalizing bits tens with
  | zero =>
    change limit ≤ bits * 10 ^ tens
    rcases Nat.lt_or_ge tens 2 with hone | htwo
    · obtain rfl : tens = 1 := by omega
      rw [pow_zero, Nat.mul_one] at h
      omega
    · have hpow : 10 ^ 2 ≤ 10 ^ tens := Nat.pow_le_pow_right (by decide) htwo
      have hprod := Nat.mul_le_mul hbits hpow
      rw [limit_eq]
      omega
  | succ n ih =>
    unfold double
    split_ifs with hsmall
    · refine ih htens (by omega) (h.imp_right fun hlarge => ?_)
      have hstep : 2 * bits * 2 ^ n = bits * 2 ^ (n + 1) := by ring
      rwa [hstep]
    · rw [limit_eq] at hsmall
      exact ih (by omega) (by omega) (.inl (by omega))

theorem le_double_of_lt {j : Nat} (hm : m < 2 ^ 53) (hfits : m * 2 ^ j < limit) (h : limit < m * 2 ^ j * 2 ^ n) :
    limit ≤ (double n (m * 2 ^ j) 0).1 * 10 ^ (double n (m * 2 ^ j) 0).2 := by
  induction n generalizing j with
  | zero =>
    rw [pow_zero, Nat.mul_one] at h
    exact absurd h (Nat.lt_asymm hfits)
  | succ n ih =>
    rw [limit_eq] at h hfits
    unfold double
    split_ifs with hsmall
    · rw [limit_eq] at hsmall
      have hnext : 2 * (m * 2 ^ j) = m * 2 ^ (j + 1) := by ring
      have hsame : m * 2 ^ (j + 1) * 2 ^ n = m * 2 ^ j * 2 ^ (n + 1) := by ring
      rw [hnext]
      refine ih ?_ ?_
      · rw [← hnext, limit_eq]; omega
      · rw [hsame, limit_eq]; exact h
    · rw [limit_eq] at hsmall
      -- 53 bits reach the limit only with more than 43 zeros behind them
      have hj : 43 ≤ j := by
        by_contra hlt
        have hpow : 2 ^ j ≤ 2 ^ 42 := Nat.pow_le_pow_right (by decide) (by omega)
        have hprod : m * 2 ^ j < 2 ^ 53 * 2 ^ 42 := Nat.mul_lt_mul_of_lt_of_le hm hpow (by decide)
        exact hsmall (hprod.trans_le (by decide))
      obtain ⟨i, rfl⟩ := Nat.exists_eq_add_of_le hj
      have hzeros : m * 2 ^ (43 + i) = 2 ^ 43 * (m * 2 ^ i) := by ring
      rw [hzeros] at hsmall h hfits ⊢
      generalize m * 2 ^ i = k at hsmall h hfits
      refine le_double le_rfl (by omega) (.inr ?_)
      rw [limit_eq]
      cases n with
      | zero => omega
      | succ n =>
        have hpow : 2 ≤ 2 ^ (n + 1) := by
          rw [pow_succ]
          have := Nat.two_pow_pos n
          omega
        have hprod := Nat.mul_le_mul_left (2 ^ 43 * k / 5) hpow
        omega

/-- The limit itself can only just be told, without its last digit. -/
theorem double_limit {j : Nat} (h : m * 2 ^ j * 2 ^ n = limit) (hn : 0 < n) :
    double n (m * 2 ^ j) 0 = (limit / 10, 1) := by
  induction n generalizing j with
  | zero => cases hn
  | succ n ih =>
    rw [limit_eq] at h
    have hnext : 2 * (m * 2 ^ j) = m * 2 ^ (j + 1) := by ring
    have hsame : m * 2 ^ (j + 1) * 2 ^ n = m * 2 ^ j * 2 ^ (n + 1) := by ring
    unfold double
    rcases Nat.eq_zero_or_pos n with rfl | hpos
    · have hhalf : m * 2 ^ j = 2 ^ 95 := by omega
      rw [hhalf, limit_eq, if_neg (by omega)]
      rfl
    · have htwo : 2 ^ 1 ≤ 2 ^ n := Nat.pow_le_pow_right (Nat.succ_pos 1) hpos
      have hprod := Nat.mul_le_mul_left (m * 2 ^ (j + 1)) htwo
      rw [limit_eq, if_pos (by omega), hnext]
      rw [← limit_eq]
      exact ih (by rw [hsame, limit_eq]; exact h) hpos

theorem absorbTens_eq {tens : Nat} (h : bits < limit) :
    absorbTens tens bits = if bits * 10 ^ tens < limit then some (bits * 10 ^ tens) else none := by
  induction tens generalizing bits with
  | zero => rw [pow_zero, Nat.mul_one, if_pos h]; rfl
  | succ tens ih =>
    have hstep : 10 * bits * 10 ^ tens = bits * 10 ^ (tens + 1) := by ring
    unfold absorbTens
    split_ifs with hfits htotal htotal
    · rw [ih hfits, hstep, if_pos htotal]
    · rw [ih hfits, hstep, if_neg htotal]
    · have hle : 10 * bits ≤ 10 * bits * 10 ^ tens := Nat.le_mul_of_pos_right _ (Nat.pow_pos (Nat.succ_pos 9))
      omega
    · rfl

/-! ## The amount of a number -/

theorem match_eq_kept (negative : Bool) (m n : Nat) :
    (match halve n m 0 with
      | (bits, places) => match dropBeyondScale places bits with
        | (bits, places) => match dropExcess places bits with
          | (bits, places) => match dropZeros places bits with
            | (bits, places) => ofParts? negative bits places) = ofParts? negative (kept m n).1 (kept m n).2 :=
  rfl

theorem ofBinary64?_of_lt (hg : g < oneGrade) : ofBinary64? (.finite negative m g) =
    ofParts? negative (kept m (oneGrade - g)).1 (kept m (oneGrade - g)).2 := by
  rw [oneGrade_eq] at hg ⊢
  rw [ofBinary64?, if_pos hg]
  exact match_eq_kept negative m (1074 - g)

theorem ofBinary64?_of_le (hm : m < limit) (hg : oneGrade ≤ g) : ofBinary64? (.finite negative m g) =
    if (double (g - oneGrade) m 0).1 * 10 ^ (double (g - oneGrade) m 0).2 < limit then
      ofParts? negative ((double (g - oneGrade) m 0).1 * 10 ^ (double (g - oneGrade) m 0).2) 0
    else none := by
  have hfits : (double (g - oneGrade) m 0).1 < limit := double_lt hm
  rw [oneGrade_eq] at hg hfits ⊢
  rw [ofBinary64?, if_neg (Nat.not_lt.mpr hg)]
  dsimp only
  rw [absorbTens_eq hfits]
  generalize (double (g - 1074) m 0).1 * 10 ^ (double (g - 1074) m 0).2 = bits
  split_ifs <;> rfl

def signed (negative : Bool) (x : ℚ) : ℚ := if negative then -x else x

theorem abs_signed_sub (negative : Bool) (x y : ℚ) : |signed negative x - signed negative y| = |x - y| := by
  cases negative with
  | false => rfl
  | true => rw [signed, signed, if_pos rfl, if_pos rfl, neg_sub_neg, abs_sub_comm]

theorem abs_signed (negative : Bool) (x : ℚ) : |signed negative x| = |x| := by
  cases negative with
  | false => rfl
  | true => exact abs_neg x

theorem value_ofParts {a : Decimal} {p : Nat × Nat} (h : ofParts? negative p.1 p.2 = some a) :
    a.negative = negative ∧ a.magnitude = p.1 ∧ a.scale = p.2 ∧ a.value = signed negative (parts p) := by
  unfold ofParts? at h
  split_ifs at h with hfits
  cases h
  refine ⟨rfl, rfl, rfl, ?_⟩
  cases negative with
  | false => rfl
  | true =>
    rw [value, coefficient, if_pos rfl, signed, if_pos rfl, parts]
    push_cast
    ring

theorem value?_finite : Binary64.value? (.finite negative m g) =
    some (signed negative (Binary64.units m g / Binary64.unitsPerOne)) := by
  rw [Binary64.value?, Binary64.signedUnits, signed]
  cases negative with
  | false => rfl
  | true =>
    rw [if_pos rfl, if_pos rfl]
    push_cast
    rw [neg_div]

theorem units_div_of_lt (hg : g < oneGrade) :
    (Binary64.units m g / Binary64.unitsPerOne : ℚ) = m / 2 ^ (oneGrade - g) := by
  have hsplit : oneGrade = (oneGrade - g) + g := by omega
  rw [Binary64.units_eq, Binary64.unitsPerOne_eq]
  nth_rewrite 1 [hsplit]
  rw [pow_add]
  push_cast
  field_simp

theorem units_div_of_le (hg : oneGrade ≤ g) :
    (Binary64.units m g / Binary64.unitsPerOne : ℚ) = (m * 2 ^ (g - oneGrade) : Nat) := by
  have hsplit : g = (g - oneGrade) + oneGrade := by omega
  rw [Binary64.units_eq, Binary64.unitsPerOne_eq]
  nth_rewrite 1 [hsplit]
  rw [pow_add, ← Nat.mul_assoc]
  push_cast
  field_simp

/-- The coefficient and the places make an amount that is near the number. -/
structure Approximates (q : ℚ) (p : Nat × Nat) : Prop where
  places : p.2 ≤ maxScale
  bits : p.1 < limit
  near : |parts p - q| ≤ q / 2 ^ 49 + 1 / 10 ^ 28
  whole : ∀ k : Nat, q = k → k < 2 ^ 96 → parts p = k
  digits : p.1 < 2 ^ 52 ∨ p.2 = 0

theorem approximates_kept (hm : m < 2 ^ 53) (hn : n ≤ 1074) : Approximates (m / 2 ^ n) (kept m n) := by
  have hlimit : m < limit := by rw [limit_eq]; omega
  obtain ⟨hplaces, hbits⟩ := kept_fits hlimit n
  refine ⟨hplaces, hbits, kept_near m hn, fun k hk _ => ?_, kept_digits m n⟩
  have hmul : m = k * 2 ^ n := by
    rw [div_eq_iff (by positivity)] at hk
    exact_mod_cast hk
  rw [hmul, kept_mul, parts, pow_zero, div_one]

theorem approximates_whole {k : Nat} (hk : k < limit) : Approximates k (k, 0) := by
  have hparts : parts (k, 0) = k := by rw [parts, pow_zero, div_one]
  refine ⟨Nat.zero_le _, hk, ?_, fun i hi _ => hparts.trans hi, .inr rfl⟩
  rw [hparts, sub_self, abs_zero]
  positivity

theorem ofBinary64?_finite (hm : m < 2 ^ 53) (g : Nat) (negative : Bool) :
    ((Binary64.units m g / Binary64.unitsPerOne : ℚ) ≤ 2 ^ 96 ∧
      ∃ p, ofBinary64? (.finite negative m g) = ofParts? negative p.1 p.2 ∧
        Approximates (Binary64.units m g / Binary64.unitsPerOne) p) ∨
    ((2 : ℚ) ^ 96 < Binary64.units m g / Binary64.unitsPerOne ∧ ofBinary64? (.finite negative m g) = none) := by
  rcases Nat.lt_or_ge g oneGrade with hg | hg
  · have hn : oneGrade - g ≤ 1074 := by rw [oneGrade_eq]; omega
    rw [units_div_of_lt hg, ofBinary64?_of_lt hg]
    refine .inl ⟨?_, _, rfl, approximates_kept hm hn⟩
    have hm' : (m : ℚ) ≤ 2 ^ 53 := by exact_mod_cast hm.le
    calc (m : ℚ) / 2 ^ (oneGrade - g) ≤ m := div_le_self (by positivity) (one_le_pow₀ (by norm_num))
      _ ≤ 2 ^ 96 := hm'.trans (by norm_num)
  have hlimit : m < limit := by rw [limit_eq]; omega
  rw [units_div_of_le hg, ofBinary64?_of_le hlimit hg]
  generalize g - oneGrade = n
  have hstart : m * 2 ^ 0 = m := by rw [pow_zero, Nat.mul_one]
  rcases Nat.lt_trichotomy (m * 2 ^ n) limit with hlt | heq | hgt
  · have hfits : m * 2 ^ n * 10 ^ 0 = m * 2 ^ n := by rw [pow_zero, Nat.mul_one]
    rw [double_of_lt hlt]
    dsimp only
    rw [hfits, if_pos hlt]
    refine .inl ⟨?_, _, rfl, approximates_whole hlt⟩
    exact_mod_cast hlt.le
  · have hpos : 0 < n := by
      by_contra hzero
      obtain rfl : n = 0 := by omega
      rw [hstart] at heq
      omega
    have hdouble := double_limit (m := m) (j := 0) (by rwa [hstart]) hpos
    rw [hstart] at hdouble
    rw [hdouble, heq, limit_eq, if_pos (by norm_num)]
    refine .inl ⟨by norm_num, (2 ^ 96 / 10 * 10, 0), rfl, Nat.zero_le _, by rw [limit_eq]; norm_num, ?_, ?_, .inr rfl⟩
    · rw [parts, abs_le]
      constructor <;> norm_num
    · intro k hk hlt
      have hsame : k = 2 ^ 96 := by exact_mod_cast hk.symm
      omega
  · have hlarge := le_double_of_lt (j := 0) hm (by rwa [hstart]) (by rwa [hstart])
    rw [hstart] at hlarge
    rw [if_neg (Nat.not_lt.mpr hlarge)]
    refine .inr ⟨?_, rfl⟩
    exact_mod_cast hgt

end

variable {x : Binary64} {a : Decimal}

/-- There is an amount for the finite numbers up to the limit. -/
theorem isSome_ofBinary64?_iff (h : x.Canonical) : (ofBinary64? x).isSome = true ↔ x.InRange := by
  unfold Binary64.InRange
  cases x with
  | finite negative m g =>
    have hnonneg : (0 : ℚ) ≤ Binary64.units m g / Binary64.unitsPerOne := by positivity
    simp only [value?_finite, Option.some.injEq, exists_eq_left', abs_signed, abs_of_nonneg hnonneg]
    rcases ofBinary64?_finite h g negative with ⟨hle, p, hp, happroximates⟩ | ⟨hlt, hnone⟩
    · rw [hp, ofParts?, dif_pos ⟨happroximates.places, happroximates.bits⟩]
      exact iff_of_true rfl hle
    · rw [hnone]
      exact iff_of_false (by decide) (not_le.mpr hlt)
  | _ => simp [ofBinary64?, Binary64.value?]

/-- The amount says what the number says. -/
theorem stands_of_ofBinary64? (h : x.Canonical) (ha : ofBinary64? x = some a) : Stands x a := by
  cases x with
  | finite negative m g =>
    have hnonneg : (0 : ℚ) ≤ Binary64.units m g / Binary64.unitsPerOne := by positivity
    rcases ofBinary64?_finite h g negative with ⟨-, p, hp, happroximates⟩ | ⟨-, hnone⟩
    · obtain ⟨hsign, hmagnitude, hscale, hvalue⟩ := value_ofParts (hp.symm.trans ha)
      refine ⟨by rw [hsign]; rfl, ?_, ?_, ?_⟩
      · intro q hq
        rw [value?_finite] at hq
        obtain rfl := Option.some.inj hq
        rw [hvalue, abs_signed_sub, abs_signed, abs_of_nonneg hnonneg]
        exact happroximates.near
      · intro n hn hlt
        rw [value?_finite] at hn
        have hn := Option.some.inj hn
        have habs : (Binary64.units m g / Binary64.unitsPerOne : ℚ) = n.natAbs := by
          rw [← abs_of_nonneg hnonneg, ← abs_signed negative, hn, Nat.cast_natAbs, Int.cast_abs]
        have hfits : n.natAbs < 2 ^ 96 := by
          rw [Int.abs_eq_natAbs] at hlt
          exact_mod_cast hlt
        rw [hvalue, happroximates.whole _ habs hfits, ← habs, hn]
      · rw [hmagnitude, hscale]
        exact happroximates.digits
    · rw [hnone] at ha
      cases ha
  | _ => cases ha

end Decimal

end WalletTopUp
