import Mathlib.Data.List.TakeWhile
import Mathlib.Tactic.SplitIfs
import WalletTopUp.Proofs.Text.Digits
import WalletTopUp.Time.InstantText

/-!
# Instants and their text

The text of an instant has all its parts in full, with nothing between them but the marks, so each part is read back
by itself: numbers of two digits, the year with a sign when it has more than four digits, and the fraction in
whichever length was needed. In a leap second the sixtieth second and the fraction stand for the nanoseconds past the
whole second.
-/

namespace WalletTopUp

namespace Date

theorem month_bounds (d : Date) : 1 ≤ d.month ∧ d.month ≤ 12 := by
  have hpos : 0 < daysInMonth d.year d.month := Nat.lt_of_lt_of_le d.isDay.2.2.1 d.isDay.2.2.2
  unfold daysInMonth at hpos
  split at hpos <;> omega

theorem day_bounds (d : Date) : 1 ≤ d.day ∧ d.day ≤ 31 := by
  have hmonth : daysInMonth d.year d.month ≤ 31 := by
    unfold daysInMonth
    split
    · split <;> decide
    all_goals decide
  exact ⟨d.isDay.2.2.1, Nat.le_trans d.isDay.2.2.2 hmonth⟩

end Date

namespace Instant

/-! ## Numbers -/

section
variable {width n : Nat} {digits rest : List Char}

theorem isDigit_of_mem_padded {c : Char} (h : c ∈ padded width n) : c.isDigit = true := by
  rcases List.mem_append.mp h with hzero | hdigit
  · rw [List.eq_of_mem_replicate hzero]
    rfl
  · exact Text.isDigit_of_mem_toDigits hdigit

theorem ofDigitChars_padded (width n : Nat) : Nat.ofDigitChars 10 (padded width n) 0 = n := by
  rw [padded, Nat.ofDigitChars_append, Nat.ofDigitChars_replicate_zero, Nat.mul_zero, Nat.ofDigitChars_ten_toDigits]

theorem padded_ne_nil (width n : Nat) : padded width n ≠ [] := by
  rw [padded, ne_eq, List.append_eq_nil_iff, not_and]
  exact fun _ => Nat.toDigits_ne_nil

theorem length_padded (hwidth : 0 < width) (hn : n < Nat.pow 10 width) : (padded width n).length = width := by
  have hle : (Nat.toDigits 10 n).length ≤ width := (Nat.length_toDigits_le_iff (by decide) hwidth).mpr hn
  rw [padded, List.length_append, List.length_replicate]
  omega

/-- The text does not go on with a digit. -/
def Stops (rest : List Char) : Prop := ∀ c ∈ rest.head?, c.isDigit = false

theorem takeWhile_digits (hdigits : ∀ c ∈ digits, c.isDigit = true) (hrest : Stops rest) :
    (digits ++ rest).takeWhile Char.isDigit = digits := by
  rw [List.takeWhile_append_of_pos hdigits]
  rcases rest with _ | ⟨c, rest⟩
  · exact List.append_nil _
  · rw [List.takeWhile_cons_of_neg (by rw [hrest c rfl]; exact Bool.false_ne_true), List.append_nil]

def limited (most : Option Nat) (cs : List Char) : List Char :=
  match most with
  | some n => cs.take n
  | none => cs

theorem number_of_limited {most : Option Nat} (hne : digits ≠ [])
    (hlimited : (limited most (digits ++ rest)).takeWhile Char.isDigit = digits)
    (hvalue : Nat.ofDigitChars 10 digits 0 < wordLimit) :
    number most (digits ++ rest) = .ok (Nat.ofDigitChars 10 digits 0, rest) := by
  have hempty : (digits ++ rest).isEmpty = false := by simp [hne]
  change (if (digits ++ rest).isEmpty then Except.error Fault.tooShort
    else if ((limited most (digits ++ rest)).takeWhile Char.isDigit).isEmpty then Except.error Fault.invalid
    else if wordLimit ≤ Nat.ofDigitChars 10 ((limited most (digits ++ rest)).takeWhile Char.isDigit) 0 then
      Except.error Fault.outOfRange
    else Except.ok (Nat.ofDigitChars 10 ((limited most (digits ++ rest)).takeWhile Char.isDigit) 0,
      (digits ++ rest).drop ((limited most (digits ++ rest)).takeWhile Char.isDigit).length)) = _
  rw [hlimited, hempty, if_neg Bool.false_ne_true, if_neg (by simpa using hne), if_neg (Nat.not_le.mpr hvalue),
    List.drop_left]

theorem number_padded (hwidth : 0 < width) (hn : n < Nat.pow 10 width) (hvalue : n < wordLimit) :
    number (some width) (padded width n ++ rest) = .ok (n, rest) := by
  have hlimited : (limited (some width) (padded width n ++ rest)).takeWhile Char.isDigit = padded width n := by
    change ((padded width n ++ rest).take width).takeWhile Char.isDigit = _
    rw [List.take_left' (length_padded hwidth hn)]
    exact List.takeWhile_eq_self_iff.mpr fun c hc => isDigit_of_mem_padded hc
  have hread := number_of_limited (padded_ne_nil width n) hlimited (by rwa [ofDigitChars_padded])
  rwa [ofDigitChars_padded] at hread

theorem Stops.take (h : Stops rest) (k : Nat) : Stops (rest.take k) := by
  intro c hc
  rcases k with _ | k
  · cases hc
  · rw [List.head?_take, if_neg (Nat.succ_ne_zero k)] at hc
    exact h c hc

theorem number_padded_of_stops {most : Option Nat} (hmost : ∀ k ∈ most, (padded width n).length ≤ k)
    (hrest : Stops rest) (hvalue : n < wordLimit) : number most (padded width n ++ rest) = .ok (n, rest) := by
  have hdigits : ∀ c ∈ padded width n, c.isDigit = true := fun c hc => isDigit_of_mem_padded hc
  have hlimited : (limited most (padded width n ++ rest)).takeWhile Char.isDigit = padded width n := by
    rcases most with _ | k
    · exact takeWhile_digits hdigits hrest
    · change ((padded width n ++ rest).take k).takeWhile Char.isDigit = _
      rw [List.take_append, List.take_of_length_le (hmost k rfl)]
      exact takeWhile_digits hdigits (hrest.take _)
  have hread := number_of_limited (padded_ne_nil width n) hlimited (by rwa [ofDigitChars_padded])
  rwa [ofDigitChars_padded] at hread

end

/-! ## Parts -/

section
variable {width n : Nat} {rest : List Char}

theorem isBlank_of_isDigit {c : Char} (h : c.isDigit = true) : Text.isBlank c = false := by
  have hrange : 48 ≤ c.toNat ∧ c.toNat ≤ 57 := by
    simpa [Char.isDigit, UInt32.le_iff_toNat_le] using h
  simp only [Text.isBlank, Bool.or_eq_false_iff, Bool.and_eq_false_iff, decide_eq_false_iff_not, beq_eq_false_iff_ne]
  omega

theorem trimStart_cons {c : Char} (h : Text.isBlank c = false) : Text.trimStart (c :: rest) = c :: rest :=
  List.dropWhile_cons_of_neg (by rw [h]; exact Bool.false_ne_true)

theorem trimStart_padded : Text.trimStart (padded width n ++ rest) = padded width n ++ rest := by
  obtain ⟨c, digits, hcons⟩ := List.exists_cons_of_ne_nil (padded_ne_nil width n)
  have hc : c ∈ padded width n := by
    rw [hcons]
    exact List.mem_cons_self
  rw [hcons, List.cons_append]
  exact trimStart_cons (isBlank_of_isDigit (isDigit_of_mem_padded hc))

theorem place_padded {low high : Nat} (hlow : low ≤ n) (hhigh : n ≤ high) (hlt : n < 100) :
    place low high (padded 2 n ++ rest) = .ok (n, rest) := by
  have hvalue : n < wordLimit := Nat.lt_trans hlt (by decide)
  unfold place
  rw [trimStart_padded, number_padded (by decide) hlt hvalue]
  exact if_pos ⟨hlow, hhigh⟩

theorem mark_cons {c : Char} (h : Text.isBlank c = false) : mark c (c :: rest) = .ok rest := by
  unfold mark
  rw [trimStart_cons h]
  exact if_pos rfl

/-- The year fits a signed word of 32 bits. -/
def FitsYear (n : Int) : Prop := -0x8000_0000 ≤ n ∧ n < 0x8000_0000

theorem year_minus {left : List Char} (hread : number none rest = .ok (n, left)) (h : FitsYear (-(n : Int))) :
    year ('-' :: rest) = .ok (-(n : Int), left) := by
  unfold FitsYear at h
  unfold year
  rw [trimStart_cons (by decide)]
  simp only [hread, Except.map, bind, Except.bind, if_pos h]

theorem year_plus {left : List Char} (hread : number none rest = .ok (n, left)) (h : FitsYear n) :
    year ('+' :: rest) = .ok ((n : Int), left) := by
  unfold FitsYear at h
  unfold year
  rw [trimStart_cons (by decide)]
  simp only [hread, Except.map, bind, Except.bind, if_pos h]

theorem year_digit {c : Char} (hc : c.isDigit = true) {left : List Char}
    (hread : number (some 4) (c :: rest) = .ok (n, left)) (h : FitsYear n) :
    year (c :: rest) = .ok ((n : Int), left) := by
  have hminus : c ≠ '-' := Text.ne_of_isDigit hc rfl
  have hplus : c ≠ '+' := Text.ne_of_isDigit hc rfl
  unfold FitsYear at h
  unfold year
  rw [trimStart_cons (isBlank_of_isDigit hc)]
  simp only [List.cons.injEq, hminus, hplus, false_and, imp_self, implies_true, hread, Except.map, bind, Except.bind,
    if_pos h]

theorem lt_wordLimit (h : n < 1000000000) : n < wordLimit := Nat.lt_trans h (by decide)

theorem year_yearText {y : Int} (hlow : Date.firstYear ≤ y) (hhigh : y ≤ Date.lastYear) (hrest : Stops rest) :
    year (yearText y ++ rest) = .ok (y, rest) := by
  unfold Date.firstYear at hlow
  unfold Date.lastYear at hhigh
  have hfits : FitsYear y := ⟨by omega, by omega⟩
  have hmost : ∀ k ∈ (none : Option Nat), (padded 4 y.natAbs).length ≤ k := nofun
  have hlong : number none (padded 4 y.natAbs ++ rest) = .ok (y.natAbs, rest) :=
    number_padded_of_stops hmost hrest (lt_wordLimit (by omega))
  unfold yearText
  split_ifs with hshort hneg
  · have htoNat : (y.toNat : Int) = y := Int.toNat_of_nonneg hshort.1
    have hread : number (some 4) (padded 4 y.toNat ++ rest) = .ok (y.toNat, rest) :=
      number_padded (by decide) (show y.toNat < 10000 by omega) (lt_wordLimit (by omega))
    obtain ⟨c, digits, hcons⟩ := List.exists_cons_of_ne_nil (padded_ne_nil 4 y.toNat)
    have hc : c ∈ padded 4 y.toNat := by
      rw [hcons]
      exact List.mem_cons_self
    rw [hcons, List.cons_append] at hread ⊢
    rw [← htoNat] at hfits
    rw [year_digit (isDigit_of_mem_padded hc) hread hfits, htoNat]
  · have hnatAbs : -(y.natAbs : Int) = y := by omega
    rw [← hnatAbs] at hfits
    rw [List.cons_append, year_minus hlong hfits, hnatAbs]
  · have hnatAbs : (y.natAbs : Int) = y := by omega
    rw [← hnatAbs] at hfits
    rw [List.cons_append, year_plus hlong hfits, hnatAbs]

/-- A fraction of fewer digits stands for as many nanoseconds as with zeros behind it. -/
theorem fraction_padded (hwidth : 0 < width) (hle : width ≤ 9) (hn : n < Nat.pow 10 width) :
    fraction ('.' :: padded width n ++ ['Z']) = .ok (n * Nat.pow 10 (9 - width), ['Z']) := by
  have hdigits : ∀ c ∈ padded width n, c.isDigit = true := fun c hc => isDigit_of_mem_padded hc
  have hlength := length_padded hwidth hn
  have hstops : Stops ['Z'] := by
    rintro c ⟨⟩
    rfl
  have hvalue : n < wordLimit := Nat.lt_of_lt_of_le hn (Nat.le_trans (Nat.pow_le_pow_right (by decide) hle) (by decide))
  have hread : number (some 9) (padded width n ++ ['Z']) = .ok (n, ['Z']) :=
    number_padded_of_stops (fun k hk => by cases hk; rw [hlength]; exact hle) hstops hvalue
  have hused : ((padded width n ++ ['Z']).take 9).takeWhile Char.isDigit = padded width n := by
    rw [List.take_append, List.take_of_length_le (by rw [hlength]; exact hle)]
    exact takeWhile_digits hdigits (hstops.take _)
  rw [List.cons_append, fraction, hread]
  change Except.ok (n * Nat.pow 10 (9 - (((padded width n ++ ['Z']).take 9).takeWhile Char.isDigit).length), ['Z']) = _
  rw [hused, hlength]

theorem fraction_fractionText {nano : Nat} (h : nano < nanosPerSecond) :
    fraction (fractionText nano ++ ['Z']) = .ok (nano, ['Z']) := by
  have hlt : nano < 1000000000 := h
  unfold fractionText
  split_ifs with hzero hmillis hmicros
  · rw [hzero]
    rfl
  · rw [fraction_padded (by decide) (by decide) (show nano / 1000000 < 1000 by omega)]
    exact congrArg (fun n => Except.ok (n, ['Z'])) (show nano / 1000000 * 1000000 = nano by omega)
  · rw [fraction_padded (by decide) (by decide) (show nano / 1000 < 1000000 by omega)]
    exact congrArg (fun n => Except.ok (n, ['Z'])) (show nano / 1000 * 1000 = nano by omega)
  · rw [fraction_padded (by decide) (by decide) hlt]
    exact congrArg (fun n => Except.ok (n, ['Z'])) (Nat.mul_one nano)

end

/-! ## The whole text -/

theorem zone_utc : zone ['Z'] = .ok (0, []) := by decide

/-- The second as it is written: 60 for a leap second. -/
def writtenSecond (t : Instant) : Nat := if nanosPerSecond ≤ t.nano then 60 else t.second % 60

/-- The nanoseconds as they are written, without the second that a leap second is over. -/
def writtenNano (t : Instant) : Nat := if nanosPerSecond ≤ t.nano then t.nano - nanosPerSecond else t.nano

theorem writtenSecond_le (t : Instant) : t.writtenSecond ≤ 60 := by
  unfold writtenSecond
  split <;> omega

theorem writtenNano_lt (t : Instant) : t.writtenNano < nanosPerSecond := by
  have hnano : t.nano < 2 * nanosPerSecond := t.isTime.2.1
  unfold writtenNano
  split <;> omega

theorem second_eq (t : Instant) :
    t.second / 3600 * 3600 + t.second / 60 % 60 * 60 + (if t.writtenSecond = 60 then 59 else t.writtenSecond) =
      t.second := by
  have hleap : nanosPerSecond ≤ t.nano → t.second % 60 = 59 := t.isTime.2.2
  unfold writtenSecond
  split_ifs <;> omega

theorem nano_eq (t : Instant) :
    (if t.writtenSecond = 60 then t.writtenNano + nanosPerSecond else t.writtenNano) = t.nano := by
  unfold writtenSecond writtenNano
  split_ifs <;> omega

theorem earlier?_zero (t : Instant) : t.earlier? 0 = some t := by
  have hsecond : t.second < 86400 := t.isTime.1
  have hmod : (Int.fmod (t.second - 0) 86400).toNat = t.second := by
    rw [Int.sub_zero, Int.fmod_eq_emod_of_nonneg _ (by decide)]
    omega
  have hnegative : ¬ ((t.second : Int) - 0 < 0) := by omega
  have hbeyond : ¬ (86400 ≤ (t.second : Int) - 0) := by omega
  unfold earlier?
  simp only [hnegative, hbeyond, if_false, hmod]
  exact dif_pos t.isTime

theorem text_toList (t : Instant) :
    t.text.toList = yearText t.date.year ++ '-' :: (padded 2 t.date.month ++ '-' :: (padded 2 t.date.day ++
      'T' :: (padded 2 (t.second / 3600) ++ ':' :: (padded 2 (t.second / 60 % 60) ++
        ':' :: (padded 2 t.writtenSecond ++ (fractionText t.writtenNano ++ ['Z'])))))) := by
  rw [text, String.toList_ofList, chars]
  simp only [List.append_assoc, List.cons_append]
  rfl

/-- **An instant is read back from its text**, to the nanosecond. -/
theorem ofText_text (t : Instant) : ofText t.text = .ok t := by
  have hsecond : t.second < 86400 := t.isTime.1
  obtain ⟨hmonth, hmonth'⟩ := t.date.month_bounds
  obtain ⟨hday, hday'⟩ := t.date.day_bounds
  have hyear : ∀ rest, year (yearText t.date.year ++ '-' :: rest) = .ok (t.date.year, '-' :: rest) := fun rest =>
    year_yearText t.date.isDay.1 t.date.isDay.2.1 (by rintro c ⟨⟩; rfl)
  have hmark : ∀ rest, mark '-' ('-' :: rest) = .ok rest := fun _ => mark_cons (by decide)
  have hcolon : ∀ rest, mark ':' (':' :: rest) = .ok rest := fun _ => mark_cons (by decide)
  have hmonths : ∀ rest, place 1 12 (padded 2 t.date.month ++ rest) = .ok (t.date.month, rest) := fun _ =>
    place_padded hmonth hmonth' (by omega)
  have hdays : ∀ rest, place 1 31 (padded 2 t.date.day ++ rest) = .ok (t.date.day, rest) := fun _ =>
    place_padded hday hday' (by omega)
  have hhours : ∀ rest, place 0 23 (padded 2 (t.second / 3600) ++ rest) = .ok (t.second / 3600, rest) := fun _ =>
    place_padded (Nat.zero_le _) (by omega) (by omega)
  have hminutes : ∀ rest, place 0 59 (padded 2 (t.second / 60 % 60) ++ rest) = .ok (t.second / 60 % 60, rest) :=
    fun _ => place_padded (Nat.zero_le _) (by omega) (by omega)
  have hseconds : ∀ rest, place 0 60 (padded 2 t.writtenSecond ++ rest) = .ok (t.writtenSecond, rest) := fun _ =>
    place_padded (Nat.zero_le _) t.writtenSecond_le (Nat.lt_of_le_of_lt t.writtenSecond_le (by decide))
  have hseparator : ∀ rest, separator ('T' :: rest) = .ok rest := fun _ => rfl
  have hdate : Date.of? t.date.year t.date.month t.date.day = some t.date := dif_pos t.date.isDay
  have htime : of? t.date t.second t.nano = some t := dif_pos t.isTime
  have htrim : Text.trimStart ['Z'] = ['Z'] := by decide
  unfold ofText
  rw [text_toList]
  simp only [bind, Except.bind, hyear, hmark, hmonths, hdays, hseparator, hhours, hcolon, hminutes, hseconds,
    fraction_fractionText t.writtenNano_lt, htrim, zone_utc, hdate]
  have hnow : Text.trimStart [] = [] := rfl
  simp only [hnow, second_eq, nano_eq, htime]
  simp [earlier?_zero]

end Instant

end WalletTopUp
