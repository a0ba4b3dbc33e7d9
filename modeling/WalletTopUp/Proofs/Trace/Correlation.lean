import WalletTopUp.PaymentMethod
import WalletTopUp.Proofs.Http.Headers
import WalletTopUp.Proofs.Text.Digits
import WalletTopUp.Trace.Context

/-!
# Correlation ids on the wire

A correlation id reaches the other side when its characters are visible: then a header holds them, byte for byte,
and they are read back as they were. Reference ids are of that kind.
-/

namespace WalletTopUp

namespace Text

/-! ## The bytes of visible text -/

def isVisible (c : Char) : Bool := 0x20 ≤ c.toNat && c.toNat < 0x7f

/-- All characters of the text are visible. -/
def Visible (s : String) : Prop := ∀ c ∈ s.toList, isVisible c = true

instance (s : String) : Decidable (Visible s) := decidable_of_iff (s.toList.all isVisible = true) List.all_eq_true

theorem lt_of_isVisible {c : Char} (h : isVisible c = true) : c.toNat < 0x80 := by
  simp only [isVisible, Bool.and_eq_true, decide_eq_true_eq] at h
  omega

theorem bytes_of_visible {s : String} (h : Visible s) : bytes s = s.toList.map fun c => UInt8.ofNat c.toNat :=
  bytes_of_ascii fun c hc => lt_of_isVisible (h c hc)

theorem Visible.readable {s : String} (h : Visible s) : Readable (bytes s) := by
  intro b hb
  rw [bytes_of_visible h, List.mem_map] at hb
  obtain ⟨c, hc, rfl⟩ := hb
  have hbyte : (UInt8.ofNat c.toNat).toNat = c.toNat := by
    have hlt := lt_of_isVisible (h c hc)
    rw [UInt8.toNat_ofNat']
    omega
  have hvisible := h c hc
  simp only [isVisible, Bool.and_eq_true, decide_eq_true_eq] at hvisible
  rw [UInt8.le_iff_toNat_le, UInt8.lt_iff_toNat_lt, hbyte]
  exact .inr hvisible

theorem headerBytes?_of_visible {s : String} (h : Visible s) : headerBytes? s = some (bytes s) :=
  headerBytes?_of_legal h.readable.legal

theorem headerText?_of_visible {s : String} (h : Visible s) : headerText? (bytes s) = some s :=
  headerText?_eq_some_iff_bytes.mpr ⟨h.readable, rfl⟩

end Text

theorem Headers.requestId?_withCorrelation (headers : Headers) (context : Option SpanContext) {id : String}
    (h : Text.Visible id) : (headers.withCorrelation context id).requestId? = some id := by
  rw [requestId?, text?, withCorrelation, replaceText, Text.headerBytes?_of_visible h]
  dsimp only
  rw [get?_replace_self]
  exact Text.headerText?_of_visible h

/-! ## Reference ids -/

namespace Text

theorem Visible.append {s t : String} (hs : Visible s) (ht : Visible t) : Visible (s ++ t) := by
  intro c hc
  rw [String.toList_append, List.mem_append] at hc
  rcases hc with hc | hc
  · exact hs c hc
  · exact ht c hc

theorem isVisible_of_isDigit {c : Char} (h : c.isDigit = true) : isVisible c = true := by
  simp only [Char.isDigit, Bool.and_eq_true, decide_eq_true_eq, ge_iff_le, UInt32.le_iff_toNat_le] at h
  obtain ⟨hlow, hhigh⟩ : 48 ≤ c.toNat ∧ c.toNat ≤ 57 := h
  simp only [isVisible, Bool.and_eq_true, decide_eq_true_eq]
  omega

theorem visible_toString (n : Nat) : Visible (toString n) := by
  intro c hc
  rw [show toString n = String.ofList (Nat.toDigits 10 n) from rfl, String.toList_ofList] at hc
  exact isVisible_of_isDigit (isDigit_of_mem_toDigits hc)

theorem visible_toString_int (n : Int) : Visible (toString n) := by
  have hminus : Visible "-" := by decide
  cases n with
  | ofNat n => exact visible_toString n
  | negSucc n => exact hminus.append (visible_toString (n + 1))

theorem isVisible_toUpper {c : Char} (h : isVisible c = true) : isVisible c.toUpper = true := by
  have hall : ∀ n < 0x7f, 0x20 ≤ n → isVisible (Char.ofNat n).toUpper = true := by decide
  simp only [isVisible, Bool.and_eq_true, decide_eq_true_eq] at h
  have hupper := hall c.toNat h.2 h.1
  rwa [Char.ofNat_toNat] at hupper

theorem Visible.upper {s : String} (h : Visible s) : Visible (upper s) := by
  intro c hc
  rw [Text.upper, String.toList_ofList] at hc
  obtain ⟨d, hd, rfl⟩ := List.mem_map.mp hc
  exact isVisible_toUpper (h d hd)

theorem isVisible_of_mem_hexDigits {width n : Nat} {c : Char} (h : c ∈ hexDigits width n) : isVisible c = true := by
  have hall : ∀ d < 16, isVisible (hexDigit d) = true := by decide
  obtain ⟨d, hd, rfl⟩ := exists_hexDigit_of_mem h
  exact hall d hd

end Text

theorem PaymentMethod.visible_referenceId (m : PaymentMethod) (at' : Instant) {nonce : String}
    (h : Text.Visible nonce) : Text.Visible (m.referenceId at' nonce) := by
  have hstart : Text.Visible "TRX-" := by decide
  have hminus : Text.Visible "-" := by decide
  have hmark : Text.Visible m.referenceMark := by cases m <;> decide
  exact ((((hstart.append (Text.visible_toString_int _)).append hminus).append h.upper).append hminus).append hmark

end WalletTopUp
