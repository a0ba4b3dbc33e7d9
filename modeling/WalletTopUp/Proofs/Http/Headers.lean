import Mathlib.Tactic.SplitIfs
import WalletTopUp.Http.Headers
import WalletTopUp.Proofs.Text.Utf8

/-!
# Values of headers

What may be written into a header (`Legal`) is more than what is read from it (`Readable`): a byte beyond ASCII may
stand in a value, but then the value is no text. A value that is put in place of the others is the only one with its
name, and the headers with other names are left as they are and where they are.
-/

namespace WalletTopUp

/-! ## Bytes -/

/-- The value may stand in a header: tabs, and bytes from 0x20 on other than 0x7f. -/
def Legal (value : List UInt8) : Prop := ∀ b ∈ value, b = 0x09 ∨ 0x20 ≤ b ∧ b ≠ 0x7f

/-- The value can be read as text: tabs, spaces and visible ASCII characters. -/
def Readable (value : List UInt8) : Prop := ∀ b ∈ value, b = 0x09 ∨ 0x20 ≤ b ∧ b < 0x7f

theorem all_isHeaderByte_iff {value : List UInt8} : value.all isHeaderByte = true ↔ Legal value := by
  simp only [List.all_eq_true, isHeaderByte, Legal, Bool.or_eq_true, Bool.and_eq_true, decide_eq_true_eq,
    bne_iff_ne, beq_iff_eq, or_comm]

theorem all_isVisibleByte_iff {value : List UInt8} : value.all isVisibleByte = true ↔ Readable value := by
  simp only [List.all_eq_true, isVisibleByte, Readable, Bool.or_eq_true, Bool.and_eq_true, decide_eq_true_eq,
    beq_iff_eq, or_comm]

instance (value : List UInt8) : Decidable (Legal value) := decidable_of_iff _ all_isHeaderByte_iff

instance (value : List UInt8) : Decidable (Readable value) := decidable_of_iff _ all_isVisibleByte_iff

theorem Readable.lt {value : List UInt8} (h : Readable value) {b : UInt8} (hb : b ∈ value) : b.toNat < 0x80 := by
  rcases h b hb with rfl | ⟨-, hlt⟩
  · decide
  · have hbound : b.toNat < 0x7f := UInt8.lt_iff_toNat_lt.mp hlt
    omega

theorem Readable.legal {value : List UInt8} (h : Readable value) : Legal value := by
  intro b hb
  exact (h b hb).imp_right fun ⟨hlow, hhigh⟩ => ⟨hlow, UInt8.ne_of_lt hhigh⟩

theorem headerBytes?_of_legal {s : String} (h : Legal (Text.bytes s)) : headerBytes? s = some (Text.bytes s) :=
  if_pos (all_isHeaderByte_iff.mpr h)

theorem headerBytes?_of_not_legal {s : String} (h : ¬ Legal (Text.bytes s)) : headerBytes? s = none :=
  if_neg (mt all_isHeaderByte_iff.mp h)

theorem headerText?_eq_some_iff {value : List UInt8} {text : String} :
    headerText? value = some text ↔
      (∀ b ∈ value, isVisibleByte b = true) ∧ text.toList = value.map fun b => Char.ofNat b.toNat := by
  rw [headerText?, ← List.all_eq_true]
  split_ifs with hall
  · rw [Option.some.injEq, ← String.toList_inj, String.toList_ofList, eq_comm]
    exact (and_iff_right hall).symm
  · simp [hall]

theorem headerText?_eq_some_iff_bytes {value : List UInt8} {text : String} :
    headerText? value = some text ↔ Readable value ∧ Text.bytes text = value := by
  rw [headerText?_eq_some_iff, ← List.all_eq_true, all_isVisibleByte_iff]
  refine and_congr_right fun hreadable => ?_
  have hbytes := Text.bytes_ofList_map_ofNat fun b hb => hreadable.lt hb
  constructor
  · intro h
    rwa [← h, String.ofList_toList] at hbytes
  · intro h
    have htext := Text.bytes_inj (h.trans hbytes.symm)
    rw [htext, String.toList_ofList]

namespace Headers
variable {headers : Headers} {name text : String} {value : List UInt8}

/-! ## Replaced headers -/

theorem head?_values : (headers.values name).head? = headers.get? name := by
  rw [values, get?, List.head?_map, List.head?_filter]

theorem values_replace_self : (headers.replace name value).values name = [value] := by
  simp [values, replace, without, List.filter_append, List.filter_filter]

/-- What is put in under a name is not seen by those who look for other names. -/
theorem filter_replace {p : String → Bool} (h : p name = false) :
    (headers.replace name value).filter (fun header => p header.name) =
      headers.filter (fun header => p header.name) := by
  have hothers : (headers.without name).filter (fun header => p header.name) =
      headers.filter (fun header => p header.name) := by
    rw [without, List.filter_filter]
    refine List.filter_congr fun header _ => ?_
    by_cases hname : header.name = name
    · simp [hname, h]
    · simp [hname]
  rw [replace, List.filter_append, hothers]
  simp [h]

theorem values_eq_of_filter {headers' : Headers}
    (h : headers'.filter (fun header => decide (header.name = name)) =
      headers.filter (fun header => decide (header.name = name))) : headers'.values name = headers.values name :=
  congrArg (List.map Header.value) h

theorem without_replace : (headers.replace name value).without name = headers.without name :=
  filter_replace (p := fun found => decide (found ≠ name)) (by simp)

theorem replaceText_of_legal (h : Legal (Text.bytes text)) :
    headers.replaceText name text = headers.replace name (Text.bytes text) := by
  rw [replaceText, headerBytes?_of_legal h]

theorem replaceText_of_not_legal (h : ¬ Legal (Text.bytes text)) : headers.replaceText name text = headers := by
  rw [replaceText, headerBytes?_of_not_legal h]

theorem values_replaceText_self (h : Legal (Text.bytes text)) :
    (headers.replaceText name text).values name = [Text.bytes text] := by
  rw [replaceText_of_legal h, values_replace_self]

theorem filter_replaceText {p : String → Bool} (h : p name = false) :
    (headers.replaceText name text).filter (fun header => p header.name) =
      headers.filter (fun header => p header.name) := by
  by_cases hlegal : Legal (Text.bytes text)
  · rw [replaceText_of_legal hlegal, filter_replace h]
  · rw [replaceText_of_not_legal hlegal]

theorem values_replaceText_of_ne {other : String} (h : other ≠ name) :
    (headers.replaceText name text).values other = headers.values other :=
  values_eq_of_filter (filter_replaceText (p := fun found => decide (found = other)) (decide_eq_false h.symm))

end Headers

end WalletTopUp
