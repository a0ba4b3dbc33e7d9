import Mathlib.Data.List.Nodup
import WalletTopUp.Proofs.TopUp.Course

/-!
# The report on a request

A request has five rules to keep, two of them for one field. What breaks a rule is said by itself (`Breaks`): of the
other rules nothing is assumed. A field is in the report when it breaks a rule, and then with all rules that it breaks
(`mem_violations_iff`, `map_field_report`), so nothing that is wrong with a request hides anything else
(`validate_complete`). Blanks are the characters with the Unicode property White_Space, and lengths count characters.
-/

namespace WalletTopUp

/-! ## Blanks -/

namespace Text

/-- The numbers of the characters with the property White_Space. -/
def whiteSpace : List Nat :=
  [0x9, 0xa, 0xb, 0xc, 0xd, 0x20, 0x85, 0xa0, 0x1680, 0x2000, 0x2001, 0x2002, 0x2003, 0x2004, 0x2005, 0x2006,
    0x2007, 0x2008, 0x2009, 0x200a, 0x2028, 0x2029, 0x202f, 0x205f, 0x3000]

theorem isBlank_iff {c : Char} : isBlank c = true ↔ c.toNat ∈ whiteSpace := by
  simp only [isBlank, whiteSpace, Bool.or_eq_true, Bool.and_eq_true, decide_eq_true_eq, beq_iff_eq, List.mem_cons,
    List.not_mem_nil, or_false]
  omega

theorem isAllBlank_iff {s : String} : isAllBlank s = true ↔ ∀ c ∈ s.toList, c.toNat ∈ whiteSpace := by
  rw [isAllBlank, List.all_eq_true]
  apply forall_congr'
  intro c
  rw [isBlank_iff]

theorem exists_not_whiteSpace_iff {s : String} :
    (∃ c ∈ s.toList, c.toNat ∉ whiteSpace) ↔ ¬∀ c ∈ s.toList, c.toNat ∈ whiteSpace := by
  simp only [not_forall, exists_prop]

end Text

namespace TopUpRequest
variable {r : TopUpRequest} {field : Field} {v w : Violation}

/-! ## The rules -/

/-- A field of the request breaks a rule. -/
inductive Breaks (r : TopUpRequest) : Field → Violation → Prop
  | amount (h : r.amount.value ≤ 0) : Breaks r .amount .notPositive
  | method (h : ∀ c ∈ r.paymentMethod.toList, c.toNat ∈ Text.whiteSpace) : Breaks r .paymentMethod .blank
  | phone (h : ∀ c ∈ r.phoneNumber.toList, c.toNat ∈ Text.whiteSpace) : Breaks r .phoneNumber .blank
  | longPhone (h : 20 < r.phoneNumber.length) :
      Breaks r .phoneNumber (.tooLong 20 (some "phone number is too long"))
  | longDescription {description : String} (h : r.description = some description) (hlong : 255 < description.length) :
      Breaks r .description (.tooLong 255 none)

theorem mem_brokenRule_iff {broken : Bool} : v ∈ brokenRule broken w ↔ broken = true ∧ v = w := by
  cases broken <;> simp [brokenRule]

theorem isPositive_iff {amount : Decimal} : amount.isPositive = true ↔ 0 < amount.value := by
  have hpow : (0 : Rat) < 10 ^ amount.scale := by positivity
  rw [Decimal.isPositive, decide_eq_true_iff, Decimal.value, lt_div_iff₀ hpow, zero_mul, Int.cast_pos]

theorem mem_violations_iff : v ∈ r.violations field ↔ r.Breaks field v := by
  cases field with
  | amount =>
    rw [violations, mem_brokenRule_iff, Bool.not_eq_true', ← Bool.not_eq_true, isPositive_iff, not_lt]
    constructor
    · rintro ⟨hamount, rfl⟩
      exact .amount hamount
    · intro h
      cases h with
      | amount hamount => exact ⟨hamount, rfl⟩
  | description =>
    rw [violations]
    constructor
    · intro h
      cases hdescription : r.description with
      | none =>
        rw [hdescription] at h
        cases h
      | some description =>
        rw [hdescription] at h
        obtain ⟨hlong, rfl⟩ := mem_brokenRule_iff.mp h
        exact .longDescription hdescription (of_decide_eq_true hlong)
    · intro h
      cases h with
      | longDescription hdescription hlong =>
        rw [hdescription]
        exact mem_brokenRule_iff.mpr ⟨decide_eq_true hlong, rfl⟩
  | paymentMethod =>
    rw [violations, mem_brokenRule_iff, Text.isAllBlank_iff]
    constructor
    · rintro ⟨hblank, rfl⟩
      exact .method hblank
    · intro h
      cases h with
      | method hblank => exact ⟨hblank, rfl⟩
  | phoneNumber =>
    rw [violations, List.mem_append, mem_brokenRule_iff, mem_brokenRule_iff, Text.isAllBlank_iff, decide_eq_true_iff]
    constructor
    · rintro (⟨hlong, rfl⟩ | ⟨hblank, rfl⟩)
      · exact .longPhone hlong
      · exact .phone hblank
    · intro h
      cases h with
      | phone hblank => exact .inr ⟨hblank, rfl⟩
      | longPhone hlong => exact .inl ⟨hlong, rfl⟩

theorem nodup_violations (r : TopUpRequest) (field : Field) : (r.violations field).Nodup := by
  have hsingle : ∀ (broken : Bool) (v : Violation), (brokenRule broken v).Nodup := by
    intro broken v
    cases broken <;> simp [brokenRule]
  cases field with
  | amount => apply hsingle
  | description =>
    rw [violations]
    cases r.description with
    | none => exact List.nodup_nil
    | some description => apply hsingle
  | paymentMethod => apply hsingle
  | phoneNumber =>
    rw [violations, List.nodup_append]
    refine ⟨hsingle _ _, hsingle _ _, ?_⟩
    intro v hv w hw
    obtain ⟨-, rfl⟩ := mem_brokenRule_iff.mp hv
    obtain ⟨-, rfl⟩ := mem_brokenRule_iff.mp hw
    intro heq
    cases heq

/-- The length is reported before the blank. -/
theorem violations_phoneNumber (hlong : 20 < r.phoneNumber.length)
    (hblank : ∀ c ∈ r.phoneNumber.toList, c.toNat ∈ Text.whiteSpace) :
    r.violations .phoneNumber = [.tooLong 20 (some "phone number is too long"), .blank] := by
  have hlimit : phoneLimit < r.phoneNumber.length := hlong
  rw [violations, Text.isAllBlank_iff.mpr hblank, decide_eq_true hlimit]
  rfl

/-! ## The report -/

theorem mem_checkedFields (field : Field) : field ∈ checkedFields := by
  cases field <;> decide

theorem map_field_report (r : TopUpRequest) :
    r.report.findings.map (·.field) = checkedFields.filter fun field => !(r.violations field).isEmpty := by
  rw [report, List.filter_map, List.map_map]
  exact List.map_id _

theorem mem_findings {finding : Finding} (h : finding ∈ r.report.findings) :
    finding = ⟨finding.field, r.value finding.field, r.violations finding.field⟩ := by
  obtain ⟨field, -, rfl⟩ := List.mem_map.mp (List.mem_filter.mp h).1
  rfl

theorem mem_map_field_report_iff : field ∈ r.report.findings.map (·.field) ↔ ∃ v, r.Breaks field v := by
  rw [map_field_report, List.mem_filter, Bool.not_eq_true', List.isEmpty_eq_false_iff_exists_mem]
  simp only [mem_checkedFields, true_and, mem_violations_iff]

theorem validate_eq_none_iff_not_breaks : r.validate = none ↔ ∀ field v, ¬r.Breaks field v := by
  rw [validate_eq_none_iff]
  apply forall_congr'
  intro field
  rw [List.eq_nil_iff_forall_not_mem]
  simp only [mem_violations_iff]

theorem eq_report_of_validate {report : Report} (h : r.validate = some report) : report = r.report := by
  unfold validate at h
  split_ifs at h
  exact (Option.some.inj h).symm

/-- **The report is complete.** A request is accepted if and only if its amount is above zero, its method and its phone
number have a character that is no blank, and neither phone number nor description is too long. Otherwise the report
names just the fields that break a rule, each of them once, and for each just the rules that it breaks; of a phone
number that is too long and blank it says the length first. -/
theorem validate_complete (r : TopUpRequest) :
    (r.validate = none ↔ 0 < r.amount.value ∧ (∃ c ∈ r.paymentMethod.toList, c.toNat ∉ Text.whiteSpace) ∧
      (∃ c ∈ r.phoneNumber.toList, c.toNat ∉ Text.whiteSpace) ∧ r.phoneNumber.length ≤ 20 ∧
      ∀ description, r.description = some description → description.length ≤ 255) ∧
    ∀ report, r.validate = some report →
      (report.findings.map (·.field)).Nodup ∧
      (∀ field, field ∈ report.findings.map (·.field) ↔ ∃ v, r.Breaks field v) ∧
      ∀ finding ∈ report.findings, finding.value = r.value finding.field ∧ finding.violations.Nodup ∧
        (∀ v, v ∈ finding.violations ↔ r.Breaks finding.field v) ∧
        (finding.field = .phoneNumber → 20 < r.phoneNumber.length →
          (∀ c ∈ r.phoneNumber.toList, c.toNat ∈ Text.whiteSpace) →
          finding.violations = [.tooLong 20 (some "phone number is too long"), .blank]) := by
  constructor
  · rw [validate_eq_none_iff_not_breaks, Text.exists_not_whiteSpace_iff, Text.exists_not_whiteSpace_iff]
    constructor
    · intro h
      refine ⟨?_, ?_, ?_, ?_, ?_⟩
      · exact not_le.mp fun hamount => h _ _ (.amount hamount)
      · exact fun hblank => h _ _ (.method hblank)
      · exact fun hblank => h _ _ (.phone hblank)
      · exact Nat.not_lt.mp fun hlong => h _ _ (.longPhone hlong)
      · exact fun description hsome => Nat.not_lt.mp fun hlong => h _ _ (.longDescription hsome hlong)
    · rintro ⟨hamount, hmethod, hphone, hshort, hdescription⟩ field v hbreaks
      cases hbreaks with
      | amount h => exact not_le.mpr hamount h
      | method h => exact hmethod h
      | phone h => exact hphone h
      | longPhone h => omega
      | longDescription h hlong =>
        have hle := hdescription _ h
        omega
  · intro report hreport
    obtain rfl := eq_report_of_validate hreport
    refine ⟨?_, fun field => mem_map_field_report_iff, ?_⟩
    · rw [map_field_report]
      apply List.Nodup.filter
      decide
    · intro finding hmem
      rw [mem_findings hmem]
      refine ⟨rfl, nodup_violations r finding.field, fun v => mem_violations_iff, ?_⟩
      intro hfield hlong hblank
      dsimp only at hfield ⊢
      rw [hfield]
      exact violations_phoneNumber hlong hblank

/-- Every rule is broken, and the phone number breaks two. -/
def hopeless : TopUpRequest where
  amount := .zero
  paymentMethod := "\u3000"
  phoneNumber := String.ofList (List.replicate 21 '\u00a0')
  description := some (String.ofList (List.replicate 256 'x'))

theorem hopeless_breaks :
    (∀ field, ∃ v, hopeless.Breaks field v) ∧ 20 < hopeless.phoneNumber.length ∧
      ∀ c ∈ hopeless.phoneNumber.toList, c.toNat ∈ Text.whiteSpace := by
  have hlong : 20 < hopeless.phoneNumber.length := by
    rw [hopeless, String.length_ofList, List.length_replicate]
    decide
  have hblank : ∀ c ∈ hopeless.phoneNumber.toList, c.toNat ∈ Text.whiteSpace := by
    intro c hc
    rw [hopeless, String.toList_ofList] at hc
    rw [List.eq_of_mem_replicate hc]
    decide
  refine ⟨?_, hlong, hblank⟩
  intro field
  cases field with
  | amount =>
    have hzero : hopeless.amount.value = 0 := by norm_num [hopeless, Decimal.zero, Decimal.value, Decimal.coefficient]
    exact ⟨_, .amount (le_of_eq hzero)⟩
  | description =>
    refine ⟨_, .longDescription rfl ?_⟩
    rw [String.length_ofList, List.length_replicate]
    decide
  | paymentMethod =>
    refine ⟨_, .method ?_⟩
    intro c hc
    obtain rfl := List.mem_singleton.mp hc
    decide
  | phoneNumber => exact ⟨_, .phone hblank⟩

theorem validate_complete_hopeless :
    ∃ report, hopeless.validate = some report ∧ (∀ field, field ∈ report.findings.map (·.field)) ∧
      ∀ finding ∈ report.findings, finding.field = .phoneNumber →
        finding.violations = [.tooLong 20 (some "phone number is too long"), .blank] := by
  have hvalidate : hopeless.validate = some hopeless.report := rfl
  obtain ⟨hbreaks, hlong, hblank⟩ := hopeless_breaks
  obtain ⟨-, hcomplete⟩ := validate_complete hopeless
  obtain ⟨-, hfields, hfindings⟩ := hcomplete _ hvalidate
  refine ⟨hopeless.report, hvalidate, ?_, ?_⟩
  · intro field
    exact (hfields field).mpr (hbreaks field)
  · intro finding hmem hfield
    exact (hfindings finding hmem).2.2.2 hfield hlong hblank

end TopUpRequest

end WalletTopUp
