import Mathlib.Tactic.IntervalCases
import WalletTopUp.Proofs.Text.Digits
import WalletTopUp.Uuid

/-!
# Identifiers and their text

The written form has the 36 characters of the hyphenated form, so it is read as such, and the 32 digits between the
hyphens write all 128 bits.
-/

namespace WalletTopUp

namespace Uuid

theorem length_simple (u : Uuid) : u.simple.length = 32 := Text.length_hexDigits 32 _

theorem ofDigits?_simple (u : Uuid) : ofDigits? u.simple = some u := by
  unfold ofDigits?
  rw [if_pos u.length_simple, simple, Text.hexNumber?_hexDigits, Option.map_some]
  have hlt : u.value.toNat < Nat.pow 16 32 := u.value.isLt
  rw [Nat.mod_eq_of_lt hlt, BitVec.ofNat_toNat, BitVec.setWidth_eq]

theorem length_chars (u : Uuid) : u.chars.length = 36 := by
  simp [chars, u.length_simple]

theorem eq_or_mem_of_mem_chars {u : Uuid} {c : Char} (h : c ∈ u.chars) : c = '-' ∨ c ∈ u.simple := by
  rw [chars] at h
  simp only [List.mem_append, List.mem_cons] at h
  rcases h with (((h | h | h) | h | h) | h | h) | h | h
  · exact .inr (List.mem_of_mem_take h)
  · exact .inl h
  · exact .inr (List.mem_of_mem_drop (List.mem_of_mem_take h))
  · exact .inl h
  · exact .inr (List.mem_of_mem_drop (List.mem_of_mem_take h))
  · exact .inl h
  · exact .inr (List.mem_of_mem_drop (List.mem_of_mem_take h))
  · exact .inl h
  · exact .inr (List.mem_of_mem_drop h)

theorem utf8Size_of_mem_chars {u : Uuid} {c : Char} (h : c ∈ u.chars) : c.utf8Size = 1 := by
  rcases eq_or_mem_of_mem_chars h with rfl | hdigit
  · rfl
  · exact Text.utf8Size_of_mem_hexDigits hdigit

theorem ungrouped?_append {a b c d e : List Char} (ha : a.length = 8) (hb : b.length = 4) (hc : c.length = 4)
    (hd : d.length = 4) :
    ungrouped? (a ++ '-' :: b ++ '-' :: c ++ '-' :: d ++ '-' :: e) = some (a ++ b ++ c ++ d ++ e) := by
  simp only [List.append_assoc, List.cons_append]
  simp [ungrouped?, List.drop_left' ha, List.take_left' ha, hyphen?, List.drop_left' hb, List.take_left' hb,
    List.drop_left' hc, List.take_left' hc, List.drop_left' hd, List.take_left' hd]

theorem ungrouped?_chars (u : Uuid) : ungrouped? u.chars = some u.simple := by
  have hlength := u.length_simple
  have hgroups : u.simple.take 8 ++ (u.simple.drop 8).take 4 ++ (u.simple.drop 12).take 4 ++
      (u.simple.drop 16).take 4 ++ u.simple.drop 20 = u.simple := by
    simp only [← List.take_add, List.take_append_drop, Nat.reduceAdd]
  rw [chars, ungrouped?_append, hgroups]
  all_goals simp [hlength]

/-- **An identifier is read back from its text.** -/
theorem ofText_text (u : Uuid) : ofText u.text = .ok u := by
  have hbytes : Text.byteLength u.chars = 36 := by
    rw [Text.byteLength_eq_length fun c hc => utf8Size_of_mem_chars hc, length_chars]
  have hform : Form.ofChars u.text.toList = .hyphenated u.chars := by
    rw [text, String.toList_ofList]
    simp only [Form.ofChars, hbytes]
  have hdigits : (Form.ofChars u.text.toList).digits?.bind ofDigits? = some u := by
    rw [hform]
    change (ungrouped? u.chars).bind ofDigits? = some u
    rw [ungrouped?_chars, Option.bind_some, ofDigits?_simple]
  unfold ofText
  simp only [hdigits]

/-! ## Random identifiers -/

/-- The version is the fourth one and the variant the common one, which begins with the bits 10. -/
def IsVersion4 (u : Uuid) : Prop := u.value.extractLsb' 76 4 = 4#4 ∧ u.value.extractLsb' 62 2 = 2#2

instance (u : Uuid) : Decidable u.IsVersion4 := inferInstanceAs (Decidable (_ ∧ _))

/-- Version and variant have their places, whatever the random bits are. -/
theorem isVersion4_version4 (random : BitVec 128) : (version4 random).IsVersion4 := by
  constructor
  · ext i hi
    interval_cases i <;> simp [version4]
  · ext i hi
    interval_cases i <;> simp [version4]

end Uuid

end WalletTopUp
