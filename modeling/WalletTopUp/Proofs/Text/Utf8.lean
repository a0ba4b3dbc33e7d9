import Mathlib.Data.List.TakeWhile
import WalletTopUp.Proofs.Results
import WalletTopUp.Text.Utf8

/-!
# The bytes of a text

A text is the list of its characters' bytes, so texts with the same bytes are the same. An ASCII character is one byte,
and ASCII bytes are the bytes of the text that shows them. Any other character is a sequence that its lead announces
(`WellFormed`), and such a sequence is read as just this character. So a text is read back from its bytes
(`decode_bytes`, `decodeLossy_bytes`), and no other bytes are a text (`ofBytes?_eq_some_iff`).
-/

namespace WalletTopUp.Text

theorem loop_eq_drop (bytes : ByteArray) (i : Nat) (taken : List UInt8) :
    ByteArray.toList.loop bytes i taken = taken.reverse ++ bytes.data.toList.drop i := by
  have hsize : bytes.size = bytes.data.toList.length := rfl
  generalize hleft : bytes.size - i = left
  induction left generalizing i taken with
  | zero =>
    rw [ByteArray.toList.loop, if_neg (by omega), List.drop_eq_nil_of_le (by omega), List.append_nil]
  | succ left ih =>
    have hi : i < bytes.data.toList.length := by omega
    have hbyte : bytes.get! i = bytes.data.toList[i] := getElem!_pos bytes.data i hi
    rw [ByteArray.toList.loop, if_pos (by omega), ih (i + 1) _ (by omega), List.drop_eq_getElem_cons hi, hbyte,
      List.reverse_cons, List.append_assoc, List.singleton_append]

theorem toList_eq_data (bytes : ByteArray) : bytes.toList = bytes.data.toList := by
  rw [ByteArray.toList, loop_eq_drop]
  rfl

theorem bytes_ofList (cs : List Char) : bytes (String.ofList cs) = cs.flatMap String.utf8EncodeChar := by
  rw [bytes, String.toUTF8, toList_eq_data, String.toByteArray_ofList, List.utf8Encode, List.toList_data_toByteArray]

theorem bytes_eq (s : String) : bytes s = s.toList.flatMap String.utf8EncodeChar := by
  rw [← bytes_ofList, String.ofList_toList]

theorem bytes_append (s t : String) : bytes (s ++ t) = bytes s ++ bytes t := by
  rw [bytes_eq, bytes_eq, bytes_eq, String.toList_append, List.flatMap_append]

theorem bytes_inj {s t : String} (h : bytes s = bytes t) : s = t := by
  rw [bytes, bytes, toList_eq_data, toList_eq_data] at h
  exact String.toByteArray_inj.mp (ByteArray.ext (Array.toList_inj.mp h))

/-! ## ASCII -/

theorem utf8EncodeChar_of_ascii {c : Char} (h : c.toNat < 0x80) :
    String.utf8EncodeChar c = [UInt8.ofNat c.toNat] := by
  have hlow : c.val.toNat ≤ 127 := by
    change c.toNat ≤ 127
    omega
  simp only [String.utf8EncodeChar, if_pos hlow]
  rfl

theorem bytes_of_ascii {s : String} (h : ∀ c ∈ s.toList, c.toNat < 0x80) :
    bytes s = s.toList.map fun c => UInt8.ofNat c.toNat := by
  have hbytes : ∀ cs : List Char, (∀ c ∈ cs, c.toNat < 0x80) →
      cs.flatMap String.utf8EncodeChar = cs.map fun c => UInt8.ofNat c.toNat := by
    intro cs hcs
    induction cs with
    | nil => rfl
    | cons c cs ih =>
      obtain ⟨hc, hrest⟩ := List.forall_mem_cons.mp hcs
      rw [List.flatMap_cons, utf8EncodeChar_of_ascii hc, ih hrest]
      rfl
  rw [← hbytes _ h, ← bytes_ofList, String.ofList_toList]

theorem bytes_ofList_map_ofNat {value : List UInt8} (h : ∀ b ∈ value, b.toNat < 0x80) :
    bytes (String.ofList (value.map fun b => Char.ofNat b.toNat)) = value := by
  have hchar : ∀ n < 0x80, (Char.ofNat n).toNat = n := by decide
  have hascii : ∀ c ∈ (String.ofList (value.map fun b => Char.ofNat b.toNat)).toList, c.toNat < 0x80 := by
    intro c hc
    rw [String.toList_ofList, List.mem_map] at hc
    obtain ⟨b, hb, rfl⟩ := hc
    rw [hchar _ (h b hb)]
    exact h b hb
  rw [bytes_of_ascii hascii, String.toList_ofList, List.map_map]
  refine (List.map_congr_left fun b hb => ?_).trans (List.map_id _)
  rw [Function.comp_apply, hchar _ (h b hb), UInt8.ofNat_toNat]
  rfl

/-! ## Longer sequences -/

/-- What a lead asks of the bytes after it: how many they are, and the bounds of the first. -/
inductive Asks : (lead n low high : Nat) → Prop
  | two {lead : Nat} (hlow : 0xc2 ≤ lead) (hhigh : lead ≤ 0xdf) : Asks lead 1 0x80 0xbf
  | e0 : Asks 0xe0 2 0xa0 0xbf
  | three {lead : Nat} (hlow : 0xe1 ≤ lead) (hhigh : lead ≤ 0xef) (hne : lead ≠ 0xed) : Asks lead 2 0x80 0xbf
  | ed : Asks 0xed 2 0x80 0x9f
  | f0 : Asks 0xf0 3 0x90 0xbf
  | four {lead : Nat} (hlow : 0xf1 ≤ lead) (hhigh : lead ≤ 0xf3) : Asks lead 3 0x80 0xbf
  | f4 : Asks 0xf4 3 0x80 0x8f

theorem Asks.bounds {lead n low high : Nat} (h : Asks lead n low high) :
    0xc2 ≤ lead ∧ low ≤ 0xbf ∧ high ≤ 0xbf := by
  cases h <;> omega

/-- A sequence of more than one byte. -/
structure WellFormed (lead second : UInt8) (others : List UInt8) : Prop where
  bounds : ∃ low high, Asks lead.toNat (others.length + 1) low high ∧ low ≤ second.toNat ∧ second.toNat ≤ high
  tails : ∀ b ∈ others, 0x80 ≤ b.toNat ∧ b.toNat ≤ 0xbf

section
variable {lead second third fourth low high : UInt8} {others : List UInt8} {n : Nat}

theorem leadBounds?_eq_some_iff :
    leadBounds? lead = some (n, low, high) ↔ Asks lead.toNat n low.toNat high.toNat := by
  constructor
  · intro h
    unfold leadBounds? at h
    simp only [Bool.and_eq_true, decide_eq_true_eq, beq_iff_eq, ← UInt8.toNat_inj, UInt8.le_iff_toNat_le,
      UInt8.reduceToNat] at h
    split_ifs at h with h2 h0 hd h3 hf h4 h8 <;> cases h
    · exact .two h2.1 h2.2
    · exact h0 ▸ .e0
    · exact hd ▸ .ed
    · exact .three h3.1 h3.2 hd
    · exact hf ▸ .f0
    · exact .four h4.1 h4.2
    · exact h8 ▸ .f4
  · intro h
    have hbyte {b : UInt8} {k : Nat} (hb : b.toNat = k) : b = UInt8.ofNat k := by rw [← hb, UInt8.ofNat_toNat]
    generalize hlead : lead.toNat = l at h
    generalize hlow : low.toNat = lo at h
    generalize hhigh : high.toNat = hi at h
    unfold leadBounds?
    simp only [Bool.and_eq_true, decide_eq_true_eq, beq_iff_eq, ← UInt8.toNat_inj, UInt8.le_iff_toNat_le,
      UInt8.reduceToNat, hlead]
    rw [hbyte hlow, hbyte hhigh]
    cases h <;> split_ifs <;> first | rfl | omega

theorem isTail_iff {b : UInt8} : isTail b = true ↔ 0x80 ≤ b.toNat ∧ b.toNat ≤ 0xbf := by
  simp [isTail, UInt8.le_iff_toNat_le]

theorem WellFormed.sequenceTail_eq (h : WellFormed lead second others) (rest : List UInt8) :
    sequenceTail lead (second :: (others ++ rest)) = (others.length + 1, true) := by
  obtain ⟨⟨low, high, hasks, hlow, hhigh⟩, htails⟩ := h
  obtain ⟨-, hlowBound, hhighBound⟩ := hasks.bounds
  have hlowByte : (UInt8.ofNat low).toNat = low := UInt8.toNat_ofNat_of_lt' (show low < 256 by omega)
  have hhighByte : (UInt8.ofNat high).toNat = high := UInt8.toNat_ofNat_of_lt' (show high < 256 by omega)
  have hbounds : leadBounds? lead = some (others.length + 1, UInt8.ofNat low, UInt8.ofNat high) := by
    rw [leadBounds?_eq_some_iff, hlowByte, hhighByte]
    exact hasks
  have hsecond : (UInt8.ofNat low ≤ second && second ≤ UInt8.ofNat high) = true := by
    simp [UInt8.le_iff_toNat_le, hlowByte, hhighByte, hlow, hhigh]
  have htake : (others ++ rest).take others.length = others := List.take_left
  have hall : others.takeWhile isTail = others :=
    List.takeWhile_eq_self_iff.mpr fun b hb => isTail_iff.mpr (htails b hb)
  simp only [sequenceTail, hbounds, hsecond, if_true, Nat.add_sub_cancel, htake, hall, beq_self_eq_true]
  rw [Nat.add_comm]

theorem exists_wellFormed {rest : List UInt8} (h : sequenceTail lead rest = (n, true)) :
    ∃ second others after, rest = second :: (others ++ after) ∧ n = others.length + 1 ∧
      WellFormed lead second others := by
  unfold sequenceTail at h
  rcases hbounds : leadBounds? lead with _ | ⟨wanted, low, high⟩ <;> rw [hbounds] at h
  · cases h
  rcases rest with _ | ⟨second, behind⟩
  · cases h
  dsimp only at h
  by_cases hsecond : (low ≤ second && second ≤ high) = true
  · rw [if_pos hsecond] at h
    obtain ⟨hn, hwhole⟩ := Prod.mk.inj h
    have hlength : ((behind.take (wanted - 1)).takeWhile isTail).length + 1 = wanted := eq_of_beq hwhole
    have hfront : (behind.take (wanted - 1)).takeWhile isTail = behind.take (wanted - 1) := by
      refine (List.takeWhile_prefix isTail).eq_of_length_le ?_
      rw [List.length_take]
      omega
    rw [hfront] at hlength hn
    simp only [Bool.and_eq_true, decide_eq_true_eq, UInt8.le_iff_toNat_le] at hsecond
    refine ⟨second, behind.take (wanted - 1), behind.drop (wanted - 1), ?_, by omega, ⟨_, _, ?_, hsecond⟩, ?_⟩
    · rw [List.take_append_drop]
    · rw [hlength]
      exact leadBounds?_eq_some_iff.mp hbounds
    · exact fun b hb => isTail_iff.mp (List.takeWhile_eq_self_iff.mp hfront b hb)
  · rw [if_neg hsecond] at h
    cases h

theorem utf8EncodeChar_ofNat (h : n.isValidChar) : String.utf8EncodeChar (Char.ofNat n) =
    if n ≤ 127 then [UInt8.ofNat n]
    else if n ≤ 2047 then [UInt8.ofNat (n / 64 % 32 + 192), UInt8.ofNat (n % 64 + 128)]
    else if n ≤ 65535 then
      [UInt8.ofNat (n / 4096 % 16 + 224), UInt8.ofNat (n / 64 % 64 + 128), UInt8.ofNat (n % 64 + 128)]
    else
      [UInt8.ofNat (n / 262144 % 8 + 240), UInt8.ofNat (n / 4096 % 64 + 128), UInt8.ofNat (n / 64 % 64 + 128),
        UInt8.ofNat (n % 64 + 128)] := by
  have hval : (Char.ofNat n).val.toNat = n := by
    rw [Char.ofNat, dif_pos h]
    rfl
  unfold String.utf8EncodeChar
  rw [hval]

theorem ofNat_eq_byte (b : UInt8) (h : n = b.toNat) : UInt8.ofNat n = b := by
  rw [h, UInt8.ofNat_toNat]

theorem encode_two (hlead : 0xc2 ≤ lead.toNat ∧ lead.toNat ≤ 0xdf)
    (hsecond : 0x80 ≤ second.toNat ∧ second.toNat ≤ 0xbf) :
    String.utf8EncodeChar (assemble lead [second]) = [lead, second] := by
  change String.utf8EncodeChar (Char.ofNat (lead.toNat % 0x20 * 64 + second.toNat % 64)) = _
  rw [utf8EncodeChar_ofNat (.inl (by omega)), if_neg (by omega), if_pos (by omega), ofNat_eq_byte lead (by omega),
    ofNat_eq_byte second (by omega)]

/-- The number is neither too small for the length nor half of a pair. -/
theorem encode_three (hlead : lead.toNat = 0xe0 ∧ 0xa0 ≤ second.toNat ∧ second.toNat ≤ 0xbf ∨
      lead.toNat = 0xed ∧ 0x80 ≤ second.toNat ∧ second.toNat ≤ 0x9f ∨
      0xe1 ≤ lead.toNat ∧ lead.toNat ≤ 0xef ∧ lead.toNat ≠ 0xed ∧ 0x80 ≤ second.toNat ∧ second.toNat ≤ 0xbf)
    (hthird : 0x80 ≤ third.toNat ∧ third.toNat ≤ 0xbf) :
    String.utf8EncodeChar (assemble lead [second, third]) = [lead, second, third] := by
  change String.utf8EncodeChar (Char.ofNat ((lead.toNat % 0x10 * 64 + second.toNat % 64) * 64 + third.toNat % 64)) = _
  have hvalid : ((lead.toNat % 0x10 * 64 + second.toNat % 64) * 64 + third.toNat % 64).isValidChar := by
    unfold Nat.isValidChar
    omega
  rw [utf8EncodeChar_ofNat hvalid, if_neg (by omega), if_neg (by omega), if_pos (by omega),
    ofNat_eq_byte lead (by omega), ofNat_eq_byte second (by omega), ofNat_eq_byte third (by omega)]

theorem encode_four (hlead : lead.toNat = 0xf0 ∧ 0x90 ≤ second.toNat ∧ second.toNat ≤ 0xbf ∨
      lead.toNat = 0xf4 ∧ 0x80 ≤ second.toNat ∧ second.toNat ≤ 0x8f ∨
      0xf1 ≤ lead.toNat ∧ lead.toNat ≤ 0xf3 ∧ 0x80 ≤ second.toNat ∧ second.toNat ≤ 0xbf)
    (hthird : 0x80 ≤ third.toNat ∧ third.toNat ≤ 0xbf) (hfourth : 0x80 ≤ fourth.toNat ∧ fourth.toNat ≤ 0xbf) :
    String.utf8EncodeChar (assemble lead [second, third, fourth]) = [lead, second, third, fourth] := by
  change String.utf8EncodeChar (Char.ofNat
    (((lead.toNat % 0x08 * 64 + second.toNat % 64) * 64 + third.toNat % 64) * 64 + fourth.toNat % 64)) = _
  rw [utf8EncodeChar_ofNat (.inr ⟨by omega, by omega⟩), if_neg (by omega), if_neg (by omega), if_neg (by omega),
    ofNat_eq_byte lead (by omega), ofNat_eq_byte second (by omega), ofNat_eq_byte third (by omega),
    ofNat_eq_byte fourth (by omega)]

theorem WellFormed.encode (h : WellFormed lead second others) :
    String.utf8EncodeChar (assemble lead (second :: others)) = lead :: second :: others := by
  obtain ⟨⟨low, high, hasks, hlow, hhigh⟩, htails⟩ := h
  generalize hlead : lead.toNat = l at hasks
  match others with
  | [] => cases hasks; exact encode_two (by omega) (by omega)
  | [third] =>
    refine encode_three ?_ (htails third List.mem_cons_self)
    cases hasks <;> omega
  | [third, fourth] =>
    refine encode_four ?_ (htails third List.mem_cons_self) (htails fourth (List.mem_cons_of_mem _ List.mem_cons_self))
    cases hasks <;> omega
  | _ :: _ :: _ :: _ => cases hasks

theorem exists_wellFormed_of_char {c : Char} (h : 0x80 ≤ c.toNat) :
    ∃ lead second others, String.utf8EncodeChar c = lead :: second :: others ∧ WellFormed lead second others := by
  have hbyte {n : Nat} (hn : n < 256) : (UInt8.ofNat n).toNat = n := by
    rw [UInt8.toNat_ofNat']
    omega
  have hvalid : c.toNat.isValidChar := c.valid
  have htail (n : Nat) : 0x80 ≤ (UInt8.ofNat (n % 64 + 128)).toNat ∧ (UInt8.ofNat (n % 64 + 128)).toNat ≤ 0xbf := by
    rw [hbyte (by omega)]
    omega
  rw [← Char.ofNat_toNat c, utf8EncodeChar_ofNat hvalid]
  generalize c.toNat = n at h hvalid
  unfold Nat.isValidChar at hvalid
  split_ifs with hone htwo hthree
  · omega
  · refine ⟨_, _, _, rfl, ⟨_, _, .two ?_ ?_, htail n⟩, List.forall_mem_nil _⟩
    all_goals rw [hbyte (by omega)]; omega
  · refine ⟨_, _, _, rfl, ?_, List.forall_mem_singleton.mpr (htail n)⟩
    rw [hbyte (by omega), hbyte (by omega)]
    by_cases he0 : n / 4096 % 16 + 224 = 0xe0
    · rw [he0]
      exact ⟨_, _, .e0, by omega, by omega⟩
    by_cases hed : n / 4096 % 16 + 224 = 0xed
    · rw [hed]
      exact ⟨_, _, .ed, by omega, by omega⟩
    · exact ⟨_, _, .three (by omega) (by omega) hed, by omega, by omega⟩
  · refine ⟨_, _, _, rfl, ?_, List.forall_mem_cons.mpr ⟨htail _, List.forall_mem_singleton.mpr (htail n)⟩⟩
    rw [hbyte (by omega), hbyte (by omega)]
    by_cases hf0 : n / 262144 % 8 + 240 = 0xf0
    · rw [hf0]
      exact ⟨_, _, .f0, by omega, by omega⟩
    by_cases hf4 : n / 262144 % 8 + 240 = 0xf4
    · rw [hf4]
      exact ⟨_, _, .f4, by omega, by omega⟩
    · exact ⟨_, _, .four (by omega) (by omega), by omega, by omega⟩

/-! ## Whole texts -/

theorem WellFormed.not_ascii (h : WellFormed lead second others) : ¬ lead < 0x80 := by
  obtain ⟨⟨low, high, hasks, -⟩, -⟩ := h
  have hlead := hasks.bounds.1
  intro hascii
  have hlow : lead.toNat < 0x80 := UInt8.lt_iff_toNat_lt.mp hascii
  omega

theorem decode_sequence (h : WellFormed lead second others) (rest : List UInt8) :
    decode (lead :: second :: (others ++ rest)) = .ok (assemble lead (second :: others)) :: decode rest := by
  rw [decode, if_neg h.not_ascii, h.sequenceTail_eq]
  simp

theorem decodeLossy_sequence (h : WellFormed lead second others) (rest : List UInt8) :
    decodeLossy (lead :: second :: (others ++ rest)) = assemble lead (second :: others) :: decodeLossy rest := by
  rw [decodeLossy, if_neg h.not_ascii, h.sequenceTail_eq]
  simp

theorem decode_utf8EncodeChar (c : Char) (rest : List UInt8) :
    decode (String.utf8EncodeChar c ++ rest) = .ok c :: decode rest ∧
      decodeLossy (String.utf8EncodeChar c ++ rest) = c :: decodeLossy rest := by
  rcases Nat.lt_or_ge c.toNat 0x80 with h | h
  · have hbyte : (UInt8.ofNat c.toNat).toNat = c.toNat := by
      rw [UInt8.toNat_ofNat']
      omega
    have hlow : UInt8.ofNat c.toNat < 0x80 := by
      rw [UInt8.lt_iff_toNat_lt, hbyte]
      exact h
    rw [utf8EncodeChar_of_ascii h, List.singleton_append, decode, decodeLossy, if_pos hlow, if_pos hlow, hbyte,
      Char.ofNat_toNat]
    exact ⟨rfl, rfl⟩
  · obtain ⟨lead, second, others, hc, hformed⟩ := exists_wellFormed_of_char h
    have hsame : assemble lead (second :: others) = c := by
      have hencode := hformed.encode.trans hc.symm
      have hbytes : bytes (String.ofList [assemble lead (second :: others)]) = bytes (String.ofList [c]) := by
        rw [bytes_ofList, bytes_ofList, List.flatMap_singleton, List.flatMap_singleton, hencode]
      simpa using bytes_inj hbytes
    rw [hc, List.cons_append, List.cons_append, decode_sequence hformed, decodeLossy_sequence hformed, hsame]
    exact ⟨rfl, rfl⟩

theorem decode_bytes (s : String) : decode (bytes s) = symbols s := by
  rw [bytes_eq, symbols]
  induction s.toList with
  | nil => rw [List.flatMap_nil, decode]; rfl
  | cons c cs ih => rw [List.flatMap_cons, (decode_utf8EncodeChar c _).1, ih]; rfl

theorem decodeLossy_bytes (s : String) : decodeLossy (bytes s) = s.toList := by
  rw [bytes_eq]
  induction s.toList with
  | nil => rw [List.flatMap_nil, decodeLossy]
  | cons c cs ih => rw [List.flatMap_cons, (decode_utf8EncodeChar c _).2, ih]

/-- Where no byte is left over the bytes are those of the characters. -/
theorem eq_of_decode {value : List UInt8} {cs : List Char} (h : decode value = cs.map .ok) :
    value = cs.flatMap String.utf8EncodeChar := by
  induction value using decode.induct generalizing cs with
  | case1 =>
    rw [decode, eq_comm, List.map_eq_nil_iff] at h
    rw [h]
    rfl
  | case2 b rest hascii ih =>
    rw [decode, if_pos hascii, eq_comm, List.map_eq_cons_iff] at h
    obtain ⟨c, cs, rfl, hc, hrest⟩ := h
    obtain rfl := Except.ok.inj hc
    have hlow : b.toNat < 0x80 := UInt8.lt_iff_toNat_lt.mp hascii
    have hchar : ∀ n < 0x80, (Char.ofNat n).toNat = n := by decide
    rw [List.flatMap_cons, ← ih hrest.symm, utf8EncodeChar_of_ascii (by rwa [hchar _ hlow]), hchar _ hlow,
      UInt8.ofNat_toNat]
    rfl
  | case3 lead rest hascii n hsequence ih =>
    rw [decode, if_neg hascii, hsequence, eq_comm, List.map_eq_cons_iff] at h
    obtain ⟨c, cs, rfl, hc, hrest⟩ := h
    obtain ⟨second, others, after, rfl, rfl, hformed⟩ := exists_wellFormed hsequence
    simp only [List.take_succ_cons, List.take_left, List.drop_succ_cons, List.drop_left] at hc hrest ih
    obtain rfl := Except.ok.inj hc
    rw [List.flatMap_cons, ← ih hrest.symm, hformed.encode]
    rfl
  | case4 b rest hascii n hsequence ih =>
    rw [decode, if_neg hascii, hsequence, eq_comm, List.map_eq_cons_iff] at h
    obtain ⟨c, cs, rfl, hc, hrest⟩ := h
    cases hc

theorem mapM_id_symbols (cs : List Char) : (cs.map .ok : List Symbol).mapM id = .ok cs := by
  induction cs with
  | nil => rfl
  | cons c cs ih =>
    rw [List.map_cons, List.mapM_cons, ih]
    rfl

theorem eq_map_of_mapM_id {found : List Symbol} {cs : List Char} (h : found.mapM id = .ok cs) : found = cs.map .ok := by
  induction found generalizing cs with
  | nil =>
    cases h
    rfl
  | cons symbol found ih =>
    rw [List.mapM_cons] at h
    obtain ⟨c, rfl, hrest⟩ := exists_of_bind_ok h
    obtain ⟨others, hothers, ⟨⟩⟩ := exists_of_bind_ok hrest
    rw [List.map_cons, ← ih hothers]

/-- Just the bytes of a text are a text. -/
theorem ofBytes?_eq_some_iff {value : List UInt8} {s : String} : ofBytes? value = some s ↔ value = bytes s := by
  unfold ofBytes?
  constructor
  · intro h
    rcases hcs : (decode value).mapM id with b | cs <;> rw [hcs] at h
    · cases h
    · cases h
      rw [bytes_ofList]
      exact eq_of_decode (eq_map_of_mapM_id hcs)
  · rintro rfl
    rw [decode_bytes, symbols, mapM_id_symbols]
    exact congrArg some String.ofList_toList

end

end WalletTopUp.Text
