import WalletTopUp.Proofs.Text.Case
import WalletTopUp.Proofs.Text.Digits
import WalletTopUp.Proofs.TopUp.Course
import WalletTopUp.Text.Split

/-!
# Which top-ups share an id

A reference id is a text without fixed places: the milliseconds may have any number of digits, and before 1970 they
begin with the very hyphen that stands between the parts. It can be taken apart all the same, because a number is never
empty and holds no hyphen behind its sign (`toString_append_hyphen_inj`). So two ids are equal only when all of their
parts are (`referenceId_eq_iff`), and two wallet ids only when provider and phone number are (`walletId_eq_iff`).
-/

namespace WalletTopUp

namespace Text

/-! ## Numbers before a hyphen -/

theorem hyphen_not_mem_toDigits (n : Nat) : '-' ∉ Nat.toDigits 10 n := by
  intro h
  cases isDigit_of_mem_toDigits h

theorem toDigits_append_hyphen_inj {n k : Nat} {s t : List Char} :
    Nat.toDigits 10 n ++ '-' :: s = Nat.toDigits 10 k ++ '-' :: t ↔ n = k ∧ s = t := by
  constructor
  · intro h
    have hsplit := congrArg (splitFirst? '-') h
    rw [splitFirst?_append s (hyphen_not_mem_toDigits n), splitFirst?_append t (hyphen_not_mem_toDigits k),
      Option.some.injEq, Prod.mk.injEq] at hsplit
    refine ⟨?_, hsplit.2⟩
    rw [← Nat.ofDigitChars_ten_toDigits (n := n), hsplit.1, Nat.ofDigitChars_ten_toDigits]
  · rintro ⟨rfl, rfl⟩
    rfl

/-- Behind a sign there is a hyphen as well, but no number begins without a digit. -/
theorem toDigits_append_hyphen_ne (n : Nat) (s t : List Char) : Nat.toDigits 10 n ++ '-' :: s ≠ '-' :: t := by
  intro h
  have hsplit := congrArg (splitFirst? '-') h
  rw [splitFirst?_append s (hyphen_not_mem_toDigits n), splitFirst?, if_pos rfl, Option.some.injEq,
    Prod.mk.injEq] at hsplit
  exact Nat.toDigits_ne_nil hsplit.1

theorem toString_append_hyphen_inj {i j : Int} {s t : List Char} :
    (toString i).toList ++ '-' :: s = (toString j).toList ++ '-' :: t ↔ i = j ∧ s = t := by
  have hplain (n : Nat) : (toString (Int.ofNat n)).toList = Nat.toDigits 10 n := String.toList_ofList
  have hsigned (n : Nat) : (toString (Int.negSucc n)).toList = '-' :: Nat.toDigits 10 (n + 1) := by
    change ("-" ++ String.ofList (Nat.toDigits 10 (n + 1))).toList = _
    simp
  cases i with
  | ofNat n =>
    cases j with
    | ofNat k => rw [hplain, hplain, toDigits_append_hyphen_inj, Int.ofNat.injEq]
    | negSucc k =>
      rw [hplain, hsigned, List.cons_append]
      simp [toDigits_append_hyphen_ne]
  | negSucc n =>
    cases j with
    | ofNat k =>
      rw [hplain, hsigned, List.cons_append, eq_comm]
      simp [toDigits_append_hyphen_ne]
    | negSucc k =>
      rw [hsigned, hsigned, List.cons_append, List.cons_append, List.cons.injEq, toDigits_append_hyphen_inj,
        Int.negSucc.injEq]
      simp

end Text

/-! ## Milliseconds -/

namespace Instant

/-- Nanoseconds since the start of 1970, leap seconds not counted. -/
def epochNanos (t : Instant) : Int := t.epochSeconds * 1000000000 + t.nano

/-- Both moments lie in one millisecond, counted from the start of 1970 in either direction. -/
def SameMillisecond (t t' : Instant) : Prop :=
  ∃ k : Int, (k * 1000000 ≤ t.epochNanos ∧ t.epochNanos < (k + 1) * 1000000) ∧
    k * 1000000 ≤ t'.epochNanos ∧ t'.epochNanos < (k + 1) * 1000000

theorem epochMillis_bounds (t : Instant) :
    t.epochMillis * 1000000 ≤ t.epochNanos ∧ t.epochNanos < (t.epochMillis + 1) * 1000000 := by
  unfold epochMillis epochNanos
  omega

theorem sameMillisecond_iff {t t' : Instant} : t.SameMillisecond t' ↔ t.epochMillis = t'.epochMillis := by
  have ht := t.epochMillis_bounds
  have ht' := t'.epochMillis_bounds
  constructor
  · rintro ⟨k, hk, hk'⟩
    omega
  · intro h
    exact ⟨t.epochMillis, ht, h ▸ ht'⟩

end Instant

/-! ## Ids -/

namespace PaymentMethod
variable {m m' : PaymentMethod}

theorem referenceMark_inj (h : m.referenceMark = m'.referenceMark) : m = m' := by
  cases m <;> cases m' <;> simp [referenceMark] at h ⊢

theorem walletMark_inj (h : m.walletMark = m'.walletMark) : m = m' := by
  cases m <;> cases m' <;> simp [walletMark] at h ⊢

theorem toList_referenceId (m : PaymentMethod) (t : Instant) (nonce : String) :
    (m.referenceId t nonce).toList = "TRX-".toList ++
      ((toString t.epochMillis).toList ++ '-' :: ((Text.upper nonce).toList ++ '-' :: m.referenceMark.toList)) := by
  simp only [referenceId, String.toList_append, List.append_assoc]
  rfl

theorem referenceId_eq_iff {t t' : Instant} {nonce nonce' : String} :
    m.referenceId t nonce = m'.referenceId t' nonce' ↔
      m = m' ∧ t.SameMillisecond t' ∧ Text.sameLetters nonce nonce' = true := by
  have hlength (m : PaymentMethod) : m.referenceMark.toList.length = 3 := by cases m <;> rfl
  rw [← String.toList_inj, toList_referenceId, toList_referenceId, List.append_cancel_left_eq,
    Text.toString_append_hyphen_inj, ← Instant.sameMillisecond_iff, ← Text.upper_eq_upper_iff]
  constructor
  · rintro ⟨hmillis, hrest⟩
    -- the marks are of one length, so the nonces end at the same place, whatever stands in them
    obtain ⟨hnonce, hmark⟩ := List.append_inj' hrest (by simp [hlength])
    rw [List.cons.injEq] at hmark
    exact ⟨referenceMark_inj (String.toList_inj.mp hmark.2), hmillis, String.toList_inj.mp hnonce⟩
  · rintro ⟨rfl, hmillis, hnonce⟩
    exact ⟨hmillis, by rw [hnonce]⟩

theorem walletId_eq_iff {phone phone' : String} : m.walletId phone = m'.walletId phone' ↔ m = m' ∧ phone = phone' := by
  have hlength (m : PaymentMethod) : m.walletMark.toList.length = 3 := by cases m <;> rfl
  rw [← String.toList_inj, walletId, walletId, String.toList_append, String.toList_append]
  constructor
  · intro h
    obtain ⟨hmark, hphone⟩ := List.append_inj h (by rw [hlength, hlength])
    exact ⟨walletMark_inj (String.toList_inj.mp hmark), String.toList_inj.mp hphone⟩
  · rintro ⟨rfl, rfl⟩
    rfl

end PaymentMethod

namespace TopUp

theorem toNat_extractLsb'_value (id : Uuid) : (id.value.extractLsb' 96 32).toNat = (id.value >>> 96).toNat := by
  have hlt := id.value.isLt
  rw [BitVec.extractLsb'_toNat, BitVec.toNat_ushiftRight, Nat.shiftRight_eq_div_pow]
  omega

/-- The nonce is the beginning of the written identifier. -/
theorem nonce_eq_take (id : Uuid) : nonce id = String.ofList (id.simple.take 8) := by
  have htake : id.simple.take 8 = Text.hexDigits 8 (id.value.toNat / Nat.pow 16 24) := Text.take_hexDigits 8 24 _
  rw [htake, nonce, nonceDigits, toNat_extractLsb'_value, BitVec.toNat_ushiftRight, Nat.shiftRight_eq_div_pow]

/-- The nonces of two random ids are the same when their first 32 bits are. -/
theorem sameLetters_nonce_iff {id id' : Uuid} :
    Text.sameLetters (nonce id) (nonce id') = true ↔ id.value >>> 96 = id'.value >>> 96 := by
  have hlower (id : Uuid) : Text.lower (nonce id) = nonce id := by
    rw [nonce, nonceDigits, Text.lower, String.toList_ofList, Text.map_toLower_hexDigits]
  have hbound (id : Uuid) : (id.value.extractLsb' 96 32).toNat < Nat.pow 16 8 := (id.value.extractLsb' 96 32).isLt
  rw [Text.sameLetters, beq_iff_eq, hlower, hlower, nonce, nonce, nonceDigits, nonceDigits, String.ofList_inj,
    Text.hexDigits_inj (hbound id) (hbound id'), toNat_extractLsb'_value, toNat_extractLsb'_value, BitVec.toNat_inj]

/-- **Only what is meant to be the same shares an id.** Two reference ids are equal if and only if they are for one
provider, at moments of one millisecond, and with nonces that are equal up to the case of their letters. Two wallet ids
are equal if and only if they are for one provider and one phone number. So of two orders the ids collide only when the
same 32 bits were drawn in one millisecond for one provider, and no wallet of one provider has an id of the other. -/
theorem ids_told_apart :
    (∀ (m m' : PaymentMethod) (t t' : Instant) (nonce nonce' : String),
      m.referenceId t nonce = m'.referenceId t' nonce' ↔
        m = m' ∧ t.SameMillisecond t' ∧ Text.sameLetters nonce nonce' = true) ∧
    (∀ (m m' : PaymentMethod) (phone phone' : String),
      m.walletId phone = m'.walletId phone' ↔ m = m' ∧ phone = phone') ∧
    ∀ (p p' : Placing) (request request' : TopUpRequest),
      ((p.order request).referenceId = (p'.order request').referenceId ↔
        p.method = p'.method ∧ p.now.SameMillisecond p'.now ∧ p.id.value >>> 96 = p'.id.value >>> 96) ∧
      ((p.order request).walletId = (p'.order request').walletId ↔
        p.method = p'.method ∧ request.phoneNumber = request'.phoneNumber) := by
  refine ⟨fun m m' t t' nonce nonce' => PaymentMethod.referenceId_eq_iff,
    fun m m' phone phone' => PaymentMethod.walletId_eq_iff, fun p p' request request' => ⟨?_, ?_⟩⟩
  · rw [← sameLetters_nonce_iff]
    exact PaymentMethod.referenceId_eq_iff
  · exact PaymentMethod.walletId_eq_iff

end TopUp

end WalletTopUp
