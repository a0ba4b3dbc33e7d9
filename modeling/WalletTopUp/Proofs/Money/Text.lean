import Mathlib.Data.List.TakeWhile
import Mathlib.Tactic.Set
import WalletTopUp.Money.Reading
import WalletTopUp.Proofs.Text.Digits

/-!
# Amounts and their text

The written form of an amount has all its digits, so reading it never rounds: while digits are left the magnitude
stays below the one that was written, and the point has no more places after it than fit. Only the sign of nothing is
lost (`ofText?_text`).
-/

namespace WalletTopUp

namespace Binary64

/-- Digits with a point are the digits before it and those after it, and together they write the same number. -/
theorem withPoint_digitsOf (n places : Nat) :
    ∃ whole fraction, withPoint (digitsOf n) places = (if places = 0 then whole else whole ++ '.' :: fraction) ∧
      whole ≠ [] ∧ fraction.length = places ∧ (∀ c ∈ whole ++ fraction, c.isDigit = true) ∧
      Nat.ofDigitChars 10 (whole ++ fraction) 0 = n := by
  set padded := List.replicate (places + 1 - (digitsOf n).length) '0' ++ digitsOf n with hpadded
  have hlength : places < padded.length := by
    rw [hpadded, List.length_append, List.length_replicate]
    omega
  refine ⟨padded.take (padded.length - places), padded.drop (padded.length - places), rfl, ?_, ?_, ?_, ?_⟩
  · rw [ne_eq, List.take_eq_nil_iff]
    rintro (hzero | hnil)
    · omega
    · rw [hnil] at hlength
      exact absurd hlength (Nat.not_lt_zero _)
  · rw [List.length_drop]
    omega
  · rw [List.take_append_drop, hpadded]
    intro c hc
    rcases List.mem_append.mp hc with hzero | hdigit
    · rw [List.eq_of_mem_replicate hzero]
      rfl
    · exact Text.isDigit_of_mem_toDigits hdigit
  · rw [List.take_append_drop, hpadded, Nat.ofDigitChars_append, Nat.ofDigitChars_replicate_zero, Nat.mul_zero]
    exact Nat.ofDigitChars_ten_toDigits

end Binary64

namespace Decimal

/-! ## Reading digits -/

theorem digitValue?_of_isDigit {c : Char} (h : c.isDigit = true) : digitValue? c = some (c.toNat - '0'.toNat) :=
  if_pos h

/-- There is room for all digits that are still to come: none will be dropped. -/
structure Progress.Room (p : Progress) (digits : List Char) : Prop where
  magnitude_lt : Nat.ofDigitChars 10 digits p.magnitude < limit
  places_le : p.point = true → p.places + digits.length ≤ maxScale
  places_eq : p.point = false → p.places = 0

structure Progress.After (p : Progress) (digits : List Char) (q : Progress) : Prop where
  magnitude_eq : q.magnitude = Nat.ofDigitChars 10 digits p.magnitude
  places_eq : q.places = if p.point then p.places + digits.length else 0
  point_eq : q.point = p.point
  digit_eq : q.digit = (p.digit || !digits.isEmpty)

theorem scan_digits {digits : List Char} (hdigits : ∀ c ∈ digits, c.isDigit = true) (rest : List Char) {p : Progress}
    (hroom : p.Room digits) : ∃ q, p.After digits q ∧ scan (digits ++ rest) p = scan rest q := by
  induction digits generalizing p with
  | nil =>
    refine ⟨p, ⟨rfl, ?_, rfl, (Bool.or_false _).symm⟩, rfl⟩
    cases hpoint : p.point with
    | false => exact hroom.places_eq hpoint
    | true => rfl
  | cons c digits ih =>
    obtain ⟨hc, hdigits⟩ := List.forall_mem_cons.mp hdigits
    obtain ⟨hlt, hplaces, hzero⟩ := hroom
    rw [Nat.ofDigitChars_cons, Nat.mul_comm] at hlt
    set next := p.magnitude * 10 + (c.toNat - '0'.toNat) with hnext
    have hfull : p.isFull = false := by
      unfold Progress.isFull
      cases hpoint : p.point with
      | false => rfl
      | true =>
        have hle := hplaces hpoint
        rw [List.length_cons] at hle
        simp only [Bool.true_and, decide_eq_false_iff_not]
        omega
    have hfits : next < limit := Nat.lt_of_le_of_lt (Text.le_ofDigitChars digits next) hlt
    have hroom' : (p.grow next).Room digits := by
      refine ⟨hlt, fun hpoint => ?_, fun hpoint => if_neg (by rw [show p.point = false from hpoint]; exact nofun)⟩
      have hpoint' : p.point = true := hpoint
      have hle := hplaces hpoint'
      rw [List.length_cons] at hle
      change (if p.point then p.places + 1 else 0) + digits.length ≤ maxScale
      rw [if_pos hpoint']
      omega
    obtain ⟨q, hafter, hscan⟩ := ih hdigits hroom'
    refine ⟨q, ⟨?_, ?_, hafter.point_eq, ?_⟩, ?_⟩
    · rw [Nat.ofDigitChars_cons, Nat.mul_comm]
      exact hafter.magnitude_eq
    · rw [hafter.places_eq]
      change (if p.point then (if p.point then p.places + 1 else 0) + digits.length else 0) = _
      split
      · rw [List.length_cons]
        omega
      · rfl
    · rw [hafter.digit_eq]
      simp [Progress.grow]
    · rw [List.cons_append, scan, hfull, digitValue?_of_isDigit hc]
      simp only [Bool.false_and, Bool.false_eq_true, if_false, Bool.not_false, and_true]
      rw [if_pos hfits]
      exact hscan

theorem scan_withPoint (a : Decimal) :
    scan (Binary64.withPoint (Binary64.digitsOf a.magnitude) a.scale) .start = some (a.magnitude, a.scale) := by
  obtain ⟨whole, fraction, htext, hwhole, hlength, hdigits, hvalue⟩ :=
    Binary64.withPoint_digitsOf a.magnitude a.scale
  have hlt : Nat.ofDigitChars 10 fraction (Nat.ofDigitChars 10 whole 0) < limit := by
    rw [← Nat.ofDigitChars_append, hvalue]
    exact a.magnitude_lt
  have hroom : Progress.start.Room whole :=
    ⟨Nat.lt_of_le_of_lt (Text.le_ofDigitChars fraction _) hlt, nofun, fun _ => rfl⟩
  rw [List.forall_mem_append] at hdigits
  rw [htext]
  split
  case isTrue hscale =>
    obtain ⟨q, hafter, hscan⟩ := scan_digits hdigits.1 [] hroom
    have hdigit : q.digit = true := by
      rw [hafter.digit_eq]
      simp [hwhole]
    rw [List.append_nil] at hscan
    rw [hscan, scan, if_pos hdigit, hafter.magnitude_eq, hafter.places_eq]
    rw [List.eq_nil_of_length_eq_zero (hlength.trans hscale), List.append_nil] at hvalue
    rw [show Progress.start.magnitude = 0 from rfl, hvalue, hscale]
    rfl
  case isFalse hscale =>
    obtain ⟨q, hafter, hscan⟩ := scan_digits hdigits.1 ('.' :: fraction) hroom
    have hpoint : q.point = false := hafter.point_eq
    have hfull : q.isFull = false := by
      rw [Progress.isFull, hpoint]
      rfl
    have hplaces : q.places = 0 := hafter.places_eq
    have hmark : scan ('.' :: fraction) q = scan fraction { q with point := true } := by
      rw [scan, hfull, hpoint]
      rfl
    have hroom' : Progress.Room { q with point := true } fraction := by
      refine ⟨?_, fun _ => ?_, nofun⟩
      · rw [show ({ q with point := true } : Progress).magnitude = q.magnitude from rfl, hafter.magnitude_eq]
        exact hlt
      · change q.places + fraction.length ≤ maxScale
        rw [hplaces, hlength, Nat.zero_add]
        exact a.scale_le
    obtain ⟨q', hafter', hscan'⟩ := scan_digits hdigits.2 [] hroom'
    have hdigit : q'.digit = true := by
      rw [hafter'.digit_eq]
      change (q.digit || _) = true
      rw [hafter.digit_eq]
      simp [hwhole]
    rw [List.append_nil] at hscan'
    rw [hscan, hmark, hscan', scan, if_pos hdigit, hafter'.magnitude_eq, hafter'.places_eq]
    change some (Nat.ofDigitChars 10 fraction q.magnitude, q.places + fraction.length) = _
    rw [hafter.magnitude_eq, hplaces, hlength, Nat.zero_add]
    rw [Nat.ofDigitChars_append] at hvalue
    exact congrArg (fun n => some (n, a.scale)) hvalue

/-! ## The whole text -/

/-- The same amount; nothing has no sign. -/
def plain (a : Decimal) : Decimal := { a with negative := a.negative && a.magnitude != 0 }

theorem plain_eq_self {a : Decimal} (h : a.negative = false ∨ a.magnitude ≠ 0) : a.plain = a := by
  have hsign : (a.negative && a.magnitude != 0) = a.negative := by
    rcases h with hnegative | hmagnitude
    · rw [hnegative, Bool.false_and]
    · rw [bne_iff_ne.mpr hmagnitude, Bool.and_true]
  unfold plain
  rw [hsign]

theorem plain_eq_self_iff {a : Decimal} : a.plain = a ↔ ¬ (a.negative = true ∧ a.magnitude = 0) := by
  constructor
  · rintro hplain ⟨hnegative, hzero⟩
    have hsign : (a.negative && a.magnitude != 0) = a.negative := congrArg negative hplain
    rw [hzero, hnegative] at hsign
    cases hsign
  · intro h
    refine plain_eq_self ?_
    cases hnegative : a.negative with
    | false => exact .inl rfl
    | true => exact .inr fun hzero => h ⟨hnegative, hzero⟩

theorem coefficient_plain (a : Decimal) : a.plain.coefficient = a.coefficient := by
  rcases eq_or_ne a.magnitude 0 with hzero | hne
  · simp [coefficient, plain, hzero]
  · rw [plain_eq_self (.inr hne)]

theorem sameValue_plain (a : Decimal) : a.plain.sameValue a = true := by
  rw [sameValue, units, units, coefficient_plain]
  exact beq_self_eq_true _

theorem plain_of_units_pos {a : Decimal} (h : 0 < a.units) : a.plain = a := by
  refine plain_eq_self (.inr fun hzero => ?_)
  have hcoefficient : a.coefficient = 0 := by simp [coefficient, hzero]
  rw [units, hcoefficient, Int.zero_mul] at h
  exact Int.lt_irrefl 0 h

theorem plain_of_of? {c : Int} {s : Nat} {d : Decimal} (h : of? c s = some d) : d.plain = d := by
  unfold of? ofParts? at h
  split at h
  · cases h
    by_cases hneg : c < 0
    · exact plain_eq_self (.inr (Int.natAbs_ne_zero.mpr (Int.ne_of_lt hneg)))
    · exact plain_eq_self (.inl (decide_eq_false hneg))
  · cases h

/-- Only a difference from nothing can be a nothing with a sign. -/
theorem plain_of_sub? {a b d : Decimal} (ha : a.isZero = false) (hb : b.isZero = false) (h : a.sub? b = some d) :
    d.plain = d := by
  rw [sub?, ha, hb] at h
  obtain ⟨dropped, -, hd⟩ := List.exists_of_findSome?_eq_some h
  exact plain_of_of? hd

theorem ofChars?_minus (rest : List Char) :
    ofChars? ('-' :: rest) =
      (scan rest .start).bind fun (magnitude, places) => ofParts? (magnitude != 0) magnitude places := by
  rfl

theorem ofChars?_digit {c : Char} (h : c.isDigit = true) (rest : List Char) :
    ofChars? (c :: rest) =
      (scan (c :: rest) .start).bind fun (magnitude, places) => ofParts? false magnitude places := by
  have hminus : c ≠ '-' := Text.ne_of_isDigit h rfl
  have hplus : c ≠ '+' := Text.ne_of_isDigit h rfl
  simp only [ofChars?, List.cons.injEq, hminus, hplus, false_and, imp_self, implies_true, Bool.false_and]
  rfl

theorem ofChars?_signed (a : Decimal) :
    ofChars? (Binary64.signText a.negative ++ Binary64.withPoint (Binary64.digitsOf a.magnitude) a.scale) =
      some a.plain := by
  have hparts : ofParts? (a.negative && a.magnitude != 0) a.magnitude a.scale = some a.plain :=
    dif_pos ⟨a.scale_le, a.magnitude_lt⟩
  have hscan := scan_withPoint a
  cases hnegative : a.negative with
  | true =>
    rw [hnegative, Bool.true_and] at hparts
    change ofChars? ('-' :: Binary64.withPoint _ _) = _
    rw [ofChars?_minus, hscan]
    exact hparts
  | false =>
    rw [hnegative, Bool.false_and] at hparts
    obtain ⟨whole, fraction, htext, hwhole, -, hdigits, -⟩ := Binary64.withPoint_digitsOf a.magnitude a.scale
    obtain ⟨c, whole, rfl⟩ := List.exists_cons_of_ne_nil hwhole
    have hhead : ∃ rest, Binary64.withPoint (Binary64.digitsOf a.magnitude) a.scale = c :: rest := by
      rw [htext]
      split <;> exact ⟨_, rfl⟩
    obtain ⟨rest, hrest⟩ := hhead
    change ofChars? (Binary64.withPoint _ _) = _
    rw [hrest] at hscan ⊢
    rw [ofChars?_digit (hdigits c List.mem_cons_self), hscan]
    exact hparts

theorem not_isExponentMark_of_isDigit {c : Char} (h : c.isDigit = true) : isExponentMark c = false := by
  have he : c ≠ 'e' := Text.ne_of_isDigit h rfl
  have hE : c ≠ 'E' := Text.ne_of_isDigit h rfl
  simp [isExponentMark, he, hE]

theorem not_isExponentMark_of_mem_text {a : Decimal} {c : Char} (h : c ∈ a.text.toList) :
    isExponentMark c = false := by
  obtain ⟨whole, fraction, htext, -, -, hdigits, -⟩ := Binary64.withPoint_digitsOf a.magnitude a.scale
  rw [text, String.toList_ofList, List.mem_append] at h
  rcases h with hsign | hpoint
  · rcases hnegative : a.negative <;> rw [hnegative] at hsign
    · cases hsign
    · rw [List.mem_singleton.mp hsign]
      rfl
  · have hmem : c ∈ whole ++ fraction ∨ c = '.' := by
      rw [htext] at hpoint
      split at hpoint
      · exact .inl (List.mem_append_left _ hpoint)
      · rcases List.mem_append.mp hpoint with hwhole | hrest
        · exact .inl (List.mem_append_left _ hwhole)
        · rcases List.mem_cons.mp hrest with hmark | hfraction
          · exact .inr hmark
          · exact .inl (List.mem_append_right _ hfraction)
    rcases hmem with hdigit | rfl
    · exact not_isExponentMark_of_isDigit (hdigits c hdigit)
    · rfl

/-- **An amount is read back from its text**, without the sign of nothing. -/
theorem ofText?_text (a : Decimal) : ofText? a.text = some a.plain := by
  have hplain : ∀ c ∈ a.text.toList, (!isExponentMark c) = true := fun c hc => by
    rw [not_isExponentMark_of_mem_text hc]
    rfl
  unfold ofText?
  rw [List.takeWhile_eq_self_iff.mpr hplain, List.dropWhile_eq_nil_iff.mpr hplain, text, String.toList_ofList]
  exact ofChars?_signed a

end Decimal

end WalletTopUp
