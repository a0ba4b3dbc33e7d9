import Mathlib.Tactic.SplitIfs
import WalletTopUp.Text.Base64Url

/-!
# Base64 is strict

Reading takes back what was written, and nothing else: every list of bytes has exactly one text (`decode?_eq_some_iff`).
-/

namespace WalletTopUp.Text.Base64Url

/-! ## Digits -/

theorem value?_eq_some {c : Char} {n : Nat} (h : value? c = some n) : n < 64 ∧ digit n = c := by
  have hle : ∀ {a b : Char}, a ≤ b ↔ a.toNat ≤ b.toNat := Iff.rfl
  have hsame : ∀ {m : Nat}, m = c.toNat → Char.ofNat m = c := by
    rintro m rfl
    exact Char.ofNat_toNat c
  have hupperA : 'A'.toNat = 65 := rfl
  have hupperZ : 'Z'.toNat = 90 := rfl
  have hlowerA : 'a'.toNat = 97 := rfl
  have hlowerZ : 'z'.toNat = 122 := rfl
  have hzero : '0'.toNat = 48 := rfl
  have hnine : '9'.toNat = 57 := rfl
  unfold value? at h
  split_ifs at h with hupper hlower hnumber hminus hscore
  · obtain rfl := Option.some.inj h
    rw [hle, hle] at hupper
    refine ⟨by omega, ?_⟩
    rw [digit, if_pos (by omega)]
    exact hsame (by omega)
  · obtain rfl := Option.some.inj h
    rw [hle, hle] at hlower
    refine ⟨by omega, ?_⟩
    rw [digit, if_neg (by omega), if_pos (by omega)]
    exact hsame (by omega)
  · obtain rfl := Option.some.inj h
    rw [hle, hle] at hnumber
    refine ⟨by omega, ?_⟩
    rw [digit, if_neg (by omega), if_neg (by omega), if_pos (by omega)]
    exact hsame (by omega)
  · obtain rfl := Option.some.inj h
    exact ⟨by omega, hminus.symm⟩
  · obtain rfl := Option.some.inj h
    exact ⟨by omega, hscore.symm⟩

theorem value?_eq_some_iff {c : Char} {n : Nat} : value? c = some n ↔ n < 64 ∧ c = digit n := by
  constructor
  · intro h
    obtain ⟨hn, hc⟩ := value?_eq_some h
    exact ⟨hn, hc.symm⟩
  · rintro ⟨hn, rfl⟩
    exact value?_digit n hn

theorem mapM_value?_iff {cs : List Char} {ns : List Nat} :
    cs.mapM value? = some ns ↔ (∀ n ∈ ns, n < 64) ∧ cs = ns.map digit := by
  induction cs generalizing ns with
  | nil =>
    constructor
    · intro h
      cases h
      exact ⟨nofun, rfl⟩
    · rintro ⟨-, h⟩
      rw [List.map_eq_nil_iff.mp h.symm]
      rfl
  | cons c cs ih =>
    rw [List.mapM_cons]
    constructor
    · intro h
      obtain ⟨n, hn, h⟩ := Option.bind_eq_some_iff.mp h
      obtain ⟨ns', hns, h⟩ := Option.bind_eq_some_iff.mp h
      cases h
      obtain ⟨hlt, rfl⟩ := value?_eq_some_iff.mp hn
      obtain ⟨hall, rfl⟩ := ih.mp hns
      exact ⟨List.forall_mem_cons.mpr ⟨hlt, hall⟩, rfl⟩
    · rintro ⟨hall, h⟩
      rcases ns with _ | ⟨n, ns⟩
      · cases h
      obtain ⟨hlt, hall⟩ := List.forall_mem_cons.mp hall
      obtain ⟨rfl, hcs⟩ := List.cons.inj h
      rw [value?_digit n hlt, ih.mpr ⟨hall, hcs⟩]
      rfl

/-! ## Sextets -/

/-- The six-bit values that write a list of bytes. -/
def sextets : List UInt8 → List Nat
  | [] => []
  | [a] => [a.toNat / 4, a.toNat % 4 * 16]
  | [a, b] =>
    let n := a.toNat * 256 + b.toNat
    [n / 1024, n / 16 % 64, n % 16 * 4]
  | a :: b :: c :: rest =>
    let n := (a.toNat * 256 + b.toNat) * 256 + c.toNat
    n / 262144 :: n / 4096 % 64 :: n / 64 % 64 :: n % 64 :: sextets rest

theorem encode_eq (bytes : List UInt8) : encode bytes = (sextets bytes).map digit := by
  induction bytes using encode.induct with
  | case1 => rfl
  | case2 a => rfl
  | case3 a b => rfl
  | case4 a b c rest ih => simp [encode, sextets, ih]

theorem sextets_lt (bytes : List UInt8) : ∀ n ∈ sextets bytes, n < 64 := by
  induction bytes using encode.induct with
  | case1 => exact nofun
  | case2 a =>
    have ha := a.toNat_lt
    intro n hn
    simp only [sextets, List.mem_cons, List.not_mem_nil, or_false] at hn
    omega
  | case3 a b =>
    have ha := a.toNat_lt
    have hb := b.toNat_lt
    intro n hn
    simp only [sextets, List.mem_cons, List.not_mem_nil, or_false] at hn
    omega
  | case4 a b c rest ih =>
    have ha := a.toNat_lt
    have hb := b.toNat_lt
    have hc := c.toNat_lt
    intro n hn
    simp only [sextets, List.mem_cons] at hn
    rcases hn with hn | hn | hn | hn | hn
    · omega
    · omega
    · omega
    · omega
    · exact ih n hn

theorem toNat_ofNat {n : Nat} (h : n < 256) : (UInt8.ofNat n).toNat = n := by
  rw [UInt8.toNat_ofNat']
  exact Nat.mod_eq_of_lt h

theorem ofNat_eq {a : UInt8} {n : Nat} (h : n = a.toNat) : UInt8.ofNat n = a := by
  rw [h, UInt8.ofNat_toNat]

theorem ofSextets?_sextets (bytes : List UInt8) : ofSextets? (sextets bytes) = some bytes := by
  induction bytes using encode.induct with
  | case1 => rfl
  | case2 a =>
    have ha := a.toNat_lt
    have hzero : a.toNat % 4 * 16 % 16 = 0 := by omega
    simp only [sextets, ofSextets?, if_pos hzero]
    rw [ofNat_eq (a := a) (by omega)]
  | case3 a b =>
    have ha := a.toNat_lt
    have hb := b.toNat_lt
    have hzero : (a.toNat * 256 + b.toNat) % 16 * 4 % 4 = 0 := by omega
    simp only [sextets, ofSextets?, if_pos hzero]
    rw [ofNat_eq (a := a) (by omega), ofNat_eq (a := b) (by omega)]
  | case4 a b c rest ih =>
    have ha := a.toNat_lt
    have hb := b.toNat_lt
    have hc := c.toNat_lt
    simp only [sextets, ofSextets?, ih]
    rw [ofNat_eq (a := a) (by omega), ofNat_eq (a := b) (by omega), ofNat_eq (a := c) (by omega)]
    rfl

theorem sextets_of_ofSextets? {ns : List Nat} {bytes : List UInt8} (hns : ∀ n ∈ ns, n < 64)
    (h : ofSextets? ns = some bytes) : sextets bytes = ns := by
  induction ns using ofSextets?.induct generalizing bytes with
  | case1 =>
    cases h
    rfl
  | case2 w => cases h
  | case3 w x hx =>
    simp only [List.forall_mem_cons] at hns
    rw [ofSextets?, if_pos hx] at h
    cases h
    have ha : (UInt8.ofNat (w * 4 + x / 16)).toNat = w * 4 + x / 16 := toNat_ofNat (by omega)
    simp only [sextets, ha, List.cons.injEq, and_true]
    omega
  | case4 w x hx =>
    rw [ofSextets?, if_neg hx] at h
    cases h
  | case5 w x y hy =>
    simp only [List.forall_mem_cons] at hns
    rw [ofSextets?, if_pos hy] at h
    cases h
    have ha : (UInt8.ofNat (w * 4 + x / 16)).toNat = w * 4 + x / 16 := toNat_ofNat (by omega)
    have hb : (UInt8.ofNat (x % 16 * 16 + y / 4)).toNat = x % 16 * 16 + y / 4 := toNat_ofNat (by omega)
    simp only [sextets, ha, hb, List.cons.injEq, and_true]
    omega
  | case6 w x y hy =>
    rw [ofSextets?, if_neg hy] at h
    cases h
  | case7 w x y z rest ih =>
    simp only [List.forall_mem_cons] at hns
    obtain ⟨hw, hx, hy, hz, hrest⟩ := hns
    rw [ofSextets?] at h
    obtain ⟨bytes', hbytes, h⟩ := Option.bind_eq_some_iff.mp h
    cases h
    have ha : (UInt8.ofNat (w * 4 + x / 16)).toNat = w * 4 + x / 16 := toNat_ofNat (by omega)
    have hb : (UInt8.ofNat (x % 16 * 16 + y / 4)).toNat = x % 16 * 16 + y / 4 := toNat_ofNat (by omega)
    have hc : (UInt8.ofNat (y % 4 * 64 + z)).toNat = y % 4 * 64 + z := toNat_ofNat (by omega)
    simp only [sextets, ha, hb, hc, List.cons.injEq, ih hrest hbytes, and_true]
    omega

theorem decode?_eq_some_iff {cs : List Char} {bytes : List UInt8} : decode? cs = some bytes ↔ cs = encode bytes := by
  rw [encode_eq]
  constructor
  · intro h
    obtain ⟨ns, hns, hbytes⟩ := Option.bind_eq_some_iff.mp h
    obtain ⟨hlt, rfl⟩ := mapM_value?_iff.mp hns
    rw [sextets_of_ofSextets? hlt hbytes]
  · rintro rfl
    have hns : ((sextets bytes).map digit).mapM value? = some (sextets bytes) :=
      mapM_value?_iff.mpr ⟨sextets_lt bytes, rfl⟩
    rw [decode?, hns]
    exact ofSextets?_sextets bytes

theorem digit_ne_dot : ∀ n, n < 64 → digit n ≠ '.' := by
  decide

theorem dot_not_mem_encode (bytes : List UInt8) : '.' ∉ encode bytes := by
  rw [encode_eq, List.mem_map]
  rintro ⟨n, hn, hdot⟩
  exact digit_ne_dot n (sextets_lt bytes n hn) hdot

end WalletTopUp.Text.Base64Url
