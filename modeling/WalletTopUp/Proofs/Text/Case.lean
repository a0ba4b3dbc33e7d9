import Mathlib.Data.List.Forall2
import Mathlib.Tactic.SplitIfs
import WalletTopUp.Text.Characters

/-!
# Words in any case

A small letter and its capital are 32 apart, and no other character has a case. So a word is told to be some capitals
by its characters alone (`upper_eq_iff`), and two texts come to the same capitals exactly when they are equal up to
the case of their letters (`upper_eq_upper_iff`).
-/

namespace WalletTopUp.Text

/-- The word spells the capitals, each as it is or as the small letter. -/
def AnyCase (capitals word : String) : Prop :=
  List.Forall₂ (fun letter c => c = letter ∨ c.toNat = letter.toNat + 32) capitals.toList word.toList

theorem toNat_toUpper (c : Char) :
    c.toUpper.toNat = if 97 ≤ c.toNat ∧ c.toNat ≤ 122 then c.toNat - 32 else c.toNat := by
  split_ifs with hsmall
  · have hall : ∀ n < 123, 97 ≤ n → (Char.ofNat n).toUpper.toNat = n - 32 := by decide
    have hc := hall c.toNat (by omega) hsmall.1
    rwa [Char.ofNat_toNat] at hc
  · exact congrArg Char.toNat (dif_neg hsmall)

theorem toUpper_eq_iff {letter c : Char} (h : letter.isUpper = true) :
    c.toUpper = letter ↔ c = letter ∨ c.toNat = letter.toNat + 32 := by
  obtain ⟨hlow, hhigh⟩ := of_decide_eq_true h
  have hlow : 65 ≤ letter.toNat := UInt32.le_iff_toNat_le.mp hlow
  have hhigh : letter.toNat ≤ 90 := UInt32.le_iff_toNat_le.mp hhigh
  rw [← Char.toNat_inj, ← Char.toNat_inj, toNat_toUpper]
  split_ifs <;> omega

theorem upper_eq_iff {capitals word : String} (h : ∀ letter ∈ capitals.toList, letter.isUpper = true) :
    upper word = capitals ↔ AnyCase capitals word := by
  have hchars : ∀ letters cs : List Char, (∀ letter ∈ letters, letter.isUpper = true) →
      (cs.map Char.toUpper = letters ↔
        List.Forall₂ (fun letter c => c = letter ∨ c.toNat = letter.toNat + 32) letters cs) := by
    intro letters
    -- letter by letter: both sides need as many characters as there are letters
    induction letters with
    | nil => simp [List.forall₂_nil_left_iff]
    | cons letter letters ih =>
      intro cs hletters
      rw [List.forall_mem_cons] at hletters
      rcases cs with _ | ⟨c, cs⟩
      · simp [List.forall₂_nil_right_iff]
      · rw [List.map_cons, List.cons.injEq, List.forall₂_cons, ih cs hletters.2, toUpper_eq_iff hletters.1]
  have hlists : upper word = capitals ↔ word.toList.map Char.toUpper = capitals.toList := by
    rw [← String.toList_inj, upper, String.toList_ofList]
  rw [hlists]
  exact hchars _ _ h

/-! ## Two texts -/

theorem toNat_toLower (c : Char) :
    c.toLower.toNat = if 65 ≤ c.toNat ∧ c.toNat ≤ 90 then c.toNat + 32 else c.toNat := by
  split_ifs with hcapital
  · have hall : ∀ n < 91, 65 ≤ n → (Char.ofNat n).toLower.toNat = n + 32 := by decide
    have hc := hall c.toNat (by omega) hcapital.1
    rwa [Char.ofNat_toNat] at hc
  · exact congrArg Char.toNat (dif_neg hcapital)

theorem toUpper_eq_toUpper_iff {c d : Char} : c.toUpper = d.toUpper ↔ c.toLower = d.toLower := by
  simp only [← Char.toNat_inj, toNat_toUpper, toNat_toLower]
  split_ifs <;> omega

theorem upper_eq_upper_iff {s t : String} : upper s = upper t ↔ sameLetters s t = true := by
  have hchars : ∀ cs ds : List Char,
      cs.map Char.toUpper = ds.map Char.toUpper ↔ cs.map Char.toLower = ds.map Char.toLower := by
    intro cs
    induction cs with
    | nil => simp
    | cons c cs ih =>
      intro ds
      rcases ds with _ | ⟨d, ds⟩
      · simp
      · simp only [List.map_cons, List.cons.injEq, ih, toUpper_eq_toUpper_iff]
  rw [sameLetters, beq_iff_eq, ← String.toList_inj, ← String.toList_inj]
  simp only [upper, lower, String.toList_ofList]
  exact hchars _ _

end WalletTopUp.Text
