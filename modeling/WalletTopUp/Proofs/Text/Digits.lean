import WalletTopUp.Text.Hex
import WalletTopUp.Text.Utf8

/-!
# Digits

What readers need to know of the digits that writers write, decimal and hexadecimal ones.
-/

namespace WalletTopUp.Text

/-! ## Decimal digits -/

theorem le_ofDigitChars (ds : List Char) (n : Nat) : n ≤ Nat.ofDigitChars 10 ds n := by
  induction ds generalizing n with
  | nil => exact Nat.le_refl _
  | cons d ds ih =>
    rw [Nat.ofDigitChars_cons]
    have hnext := ih (10 * n + (d.toNat - '0'.toNat))
    omega

theorem isDigit_of_mem_toDigits {n : Nat} {c : Char} (h : c ∈ Nat.toDigits 10 n) : c.isDigit = true :=
  Nat.isDigit_of_mem_toDigits (by decide) (by decide) h

theorem ne_of_isDigit {c d : Char} (hc : c.isDigit = true) (hd : d.isDigit = false) : c ≠ d := by
  rintro rfl
  rw [hd] at hc
  cases hc

theorem toDigits_ne_zero_cons (n : Nat) (c : Char) (ds : List Char) : Nat.toDigits 10 n ≠ '0' :: c :: ds := by
  induction n using Nat.strongRecOn generalizing c ds with
  | ind n ih =>
    rw [Nat.toDigits_eq_if (by decide)]
    split
    · simp
    case isFalse hlarge =>
      intro h
      rcases hhead : Nat.toDigits 10 (n / 10) with _ | ⟨d, _ | ⟨d', ds'⟩⟩
      · exact Nat.toDigits_ne_nil hhead
      · rw [hhead, List.cons_append, List.cons.injEq] at h
        -- a single leading zero would make the number before the last digit zero
        have hzero : n / 10 = 0 := by
          rw [← Nat.ofDigitChars_ten_toDigits (n := n / 10), hhead, h.1]
          rfl
        omega
      · rw [hhead, List.cons_append, List.cons_append, List.cons.injEq] at h
        rw [h.1] at hhead
        exact ih (n / 10) (by omega) d' ds' hhead

/-! ## Hexadecimal digits -/

theorem utf8Size_hexDigit : ∀ n, n < 16 → (hexDigit n).utf8Size = 1 := by decide

theorem exists_hexDigit_of_mem {width n : Nat} {c : Char} (h : c ∈ hexDigits width n) : ∃ d < 16, c = hexDigit d := by
  induction width generalizing n with
  | zero => cases h
  | succ width ih =>
    rcases List.mem_append.mp h with hmem | hlast
    · exact ih hmem
    · exact ⟨n % 16, Nat.mod_lt _ (by decide), List.mem_singleton.mp hlast⟩

theorem utf8Size_of_mem_hexDigits {width n : Nat} {c : Char} (h : c ∈ hexDigits width n) : c.utf8Size = 1 := by
  obtain ⟨d, hd, rfl⟩ := exists_hexDigit_of_mem h
  exact utf8Size_hexDigit d hd

theorem map_toLower_hexDigits (width n : Nat) : (hexDigits width n).map Char.toLower = hexDigits width n := by
  have hall : ∀ d < 16, (hexDigit d).toLower = hexDigit d := by decide
  refine (List.map_congr_left fun c hc => ?_).trans (List.map_id _)
  obtain ⟨d, hd, rfl⟩ := exists_hexDigit_of_mem hc
  exact hall d hd

theorem take_hexDigits (width rest n : Nat) :
    (hexDigits (width + rest) n).take width = hexDigits width (n / Nat.pow 16 rest) := by
  induction rest generalizing n with
  | zero =>
    change (hexDigits (width + 0) n).take width = hexDigits width (n / 1)
    rw [Nat.add_zero, List.take_of_length_le (by simp), Nat.div_one]
  | succ rest ih =>
    have hlength : width ≤ (hexDigits (width + rest) (n / 16)).length := by simp
    change _ = hexDigits width (n / (Nat.pow 16 rest * 16))
    rw [← Nat.add_assoc, hexDigits, List.take_append_of_le_length hlength, ih, Nat.div_div_eq_div_mul, Nat.mul_comm]

theorem byteLength_eq_length {cs : List Char} (h : ∀ c ∈ cs, c.utf8Size = 1) : byteLength cs = cs.length := by
  induction cs with
  | nil => rfl
  | cons c cs ih =>
    obtain ⟨hc, hcs⟩ := List.forall_mem_cons.mp h
    change c.utf8Size + byteLength cs = _
    rw [hc, ih hcs, List.length_cons, Nat.add_comm]

theorem hexNumber?_append_hexDigit {cs : List Char} {n d : Nat} (h : hexNumber? cs = some n) (hd : d < 16) :
    hexNumber? (cs ++ [hexDigit d]) = some (16 * n + d) := by
  unfold hexNumber? at h ⊢
  rw [List.foldlM_append, h]
  simp [hexValue?_hexDigit d hd]

theorem hexNumber?_hexDigits (width n : Nat) : hexNumber? (hexDigits width n) = some (n % Nat.pow 16 width) := by
  induction width generalizing n with
  | zero =>
    change some 0 = some (n % 1)
    rw [Nat.mod_one]
  | succ width ih =>
    have hlow : n % 16 < 16 := Nat.mod_lt _ (by decide)
    rw [hexDigits, hexNumber?_append_hexDigit (ih _) hlow]
    change some (16 * (n / 16 % Nat.pow 16 width) + n % 16) = some (n % (Nat.pow 16 width * 16))
    rw [Nat.mul_comm (Nat.pow 16 width), Nat.mod_mul, Nat.add_comm]

/-- Digits that are written alike write one number, when there are enough of them. -/
theorem hexDigits_inj {width n k : Nat} (hn : n < Nat.pow 16 width) (hk : k < Nat.pow 16 width) :
    hexDigits width n = hexDigits width k ↔ n = k := by
  constructor
  · intro h
    have hnumber := congrArg hexNumber? h
    rwa [hexNumber?_hexDigits, hexNumber?_hexDigits, Nat.mod_eq_of_lt hn, Nat.mod_eq_of_lt hk,
      Option.some.injEq] at hnumber
  · rintro rfl
    rfl

end WalletTopUp.Text
