import WalletTopUp.Proofs.Http.Headers
import WalletTopUp.Proofs.Trace.Correlation
import WalletTopUp.Text.Split

/-!
# What the headers of a request tell

A request that is sent on tells its correlation id, and within a span the place of the span in its trace. Of the headers
that were there before, those with other names stay as they are. Each of the three names is either told anew, by one
value in place of all values, or left as it was (`Told`). The place in the trace is read back by a strict reader, which
takes nothing but fields of full width in lower case (`TraceParent.ofValue?`).
-/

namespace WalletTopUp

/-! ## The place in a trace, read -/

/-- What the value of a `traceparent` says. -/
structure TraceParent where
  version : BitVec 8
  traceId : BitVec 128
  spanId : BitVec 64
  flags : BitVec 8
  deriving DecidableEq

namespace TraceParent

/-- A hexadecimal digit in lower case. -/
def isDigit (c : Char) : Bool := ('0' ≤ c && c ≤ '9') || ('a' ≤ c && c ≤ 'f')

/-- The number of so many bits in a field that is as wide as it has to be. -/
def field? (width bits : Nat) (cs : List Char) : Option (BitVec bits) :=
  if cs.length = width ∧ cs.all isDigit then (Text.hexNumber? cs).map (BitVec.ofNat bits) else none

/-- Four fields with hyphens between them, and nothing else. -/
def ofText? (text : String) : Option TraceParent :=
  match Text.pieces '-' text.toList with
  | [version, traceId, spanId, flags] => do
    return ⟨← field? 2 8 version, ← field? 32 128 traceId, ← field? 16 64 spanId, ← field? 2 8 flags⟩
  | _ => none

def ofValue? (value : List UInt8) : Option TraceParent := (headerText? value).bind ofText?

theorem isDigit_of_mem_hexDigits {width n : Nat} {c : Char} (h : c ∈ Text.hexDigits width n) : isDigit c = true := by
  have hall : ∀ d < 16, isDigit (Text.hexDigit d) = true := by decide
  obtain ⟨d, hd, rfl⟩ := Text.exists_hexDigit_of_mem h
  exact hall d hd

theorem hyphen_not_mem_hexDigits (width n : Nat) : '-' ∉ Text.hexDigits width n := by
  intro h
  cases isDigit_of_mem_hexDigits h

theorem field?_hexDigits (width bits : Nat) (h : Nat.pow 2 bits = Nat.pow 16 width) (x : BitVec bits) :
    field? width bits (Text.hexDigits width x.toNat) = some x := by
  have hlt : x.toNat < Nat.pow 16 width := h ▸ x.isLt
  have hdigits : (Text.hexDigits width x.toNat).all isDigit = true :=
    List.all_eq_true.mpr fun c hc => isDigit_of_mem_hexDigits hc
  rw [field?, if_pos ⟨Text.length_hexDigits width _, hdigits⟩, Text.hexNumber?_hexDigits, Nat.mod_eq_of_lt hlt,
    Option.map_some, BitVec.ofNat_toNat, BitVec.setWidth_eq]

theorem pieces_parentChars (c : SpanContext) :
    Text.pieces '-' c.parentChars = [['0', '0'], Text.hexDigits 32 c.traceId.toNat,
      Text.hexDigits 16 c.spanId.toNat, Text.hexDigits 2 c.flags.toNat] := by
  have hparts : c.parentChars = ['0', '0'] ++ '-' :: (Text.hexDigits 32 c.traceId.toNat ++
      '-' :: (Text.hexDigits 16 c.spanId.toNat ++ '-' :: Text.hexDigits 2 c.flags.toNat)) := by
    simp [SpanContext.parentChars]
  have hversion : '-' ∉ ['0', '0'] := by decide
  rw [hparts, Text.pieces_append _ hversion, Text.pieces_append _ (hyphen_not_mem_hexDigits _ _),
    Text.pieces_append _ (hyphen_not_mem_hexDigits _ _), Text.pieces_of_not_mem (hyphen_not_mem_hexDigits _ _)]

theorem ofText?_parentChars (c : SpanContext) :
    ofText? (String.ofList c.parentChars) = some ⟨0, c.traceId, c.spanId, c.flags⟩ := by
  have hversion : field? 2 8 ['0', '0'] = some 0#8 := by decide
  have htrace := field?_hexDigits 32 128 (by decide) c.traceId
  have hspan := field?_hexDigits 16 64 (by decide) c.spanId
  have hflags := field?_hexDigits 2 8 (by decide) c.flags
  simp [ofText?, String.toList_ofList, pieces_parentChars, hversion, htrace, hspan, hflags]

example : ofText? "00-0000000000000000000000000000002a-00000000000000ff-01" = some ⟨0, 42, 255, 1⟩ := by
  decide

example : ofText? "00-0000000000000000000000000000002A-00000000000000FF-01" = none := by
  decide

end TraceParent

/-! ## What is told -/

/-- The request is made within a span that has both of its ids. -/
def SpanContext.Within (context : Option SpanContext) (c : SpanContext) : Prop :=
  context = some c ∧ c.traceId ≠ 0#128 ∧ c.spanId ≠ 0#64

namespace Headers
open SpanContext (Within)

/-- The names under which something may be told. -/
def toldNames : List String := [requestIdHeader, traceParentHeader, traceStateHeader]

/-- The headers `told` are what becomes of headers that are to tell a correlation id and a place in a trace. -/
structure Told (headers : Headers) (context : Option SpanContext) (requestId : String) (told : Headers) : Prop where
  /-- An id that may stand in a header is the only one. -/
  id : Legal (Text.bytes requestId) → told.values requestIdHeader = [Text.bytes requestId]
  idKept : ¬ Legal (Text.bytes requestId) → told.values requestIdHeader = headers.values requestIdHeader
  /-- The id that is read is the text of the first value, if that can be read. -/
  read : ∀ text, told.requestId? = some text ↔
    ∃ value, (told.values requestIdHeader).head? = some value ∧ Readable value ∧ Text.bytes text = value
  /-- The place in the trace is the only one, and it can be read back. -/
  parent : ∀ c, Within context c → ∃ value, told.values traceParentHeader = [value] ∧
    TraceParent.ofValue? value = some ⟨0, c.traceId, c.spanId, c.flags⟩
  parentKept : (∀ c, ¬ Within context c) → told.values traceParentHeader = headers.values traceParentHeader
  /-- The entries of the vendors are told when there are any and they may stand in a header. -/
  state : ∀ c, Within context c → c.stateText ≠ "" → Legal (Text.bytes c.stateText) →
    told.values traceStateHeader = [Text.bytes c.stateText]
  stateKept : (∀ c, Within context c → c.stateText = "" ∨ ¬ Legal (Text.bytes c.stateText)) →
    told.values traceStateHeader = headers.values traceStateHeader
  /-- All other headers are there as they were, in their order. -/
  others : told.filter (fun header => header.name ∉ toldNames) = headers.filter (fun header => header.name ∉ toldNames)

variable {headers : Headers} {context : Option SpanContext} {c : SpanContext} {requestId : String}

theorem withTrace_of_within (h : Within context c) : headers.withTrace context =
    if c.stateText = "" then headers.replaceText traceParentHeader (String.ofList c.parentChars)
    else
      (headers.replaceText traceParentHeader (String.ofList c.parentChars)).replaceText traceStateHeader
        c.stateText := by
  obtain ⟨rfl, htrace, hspan⟩ := h
  have hvalid : c.isValid = true := by simp [SpanContext.isValid, htrace, hspan]
  simp only [withTrace, hvalid, if_true, String.isEmpty_iff]

theorem withTrace_of_not_within (h : ∀ c, ¬ Within context c) : headers.withTrace context = headers := by
  rcases context with _ | c
  · rfl
  · have hinvalid : ¬ c.isValid = true := fun hvalid => h c ⟨rfl, by simpa [SpanContext.isValid] using hvalid⟩
    rw [withTrace, if_neg hinvalid]

theorem filter_withTrace {p : String → Bool} (hparent : p traceParentHeader = false)
    (hstate : p traceStateHeader = false) :
    (headers.withTrace context).filter (fun header => p header.name) =
      headers.filter (fun header => p header.name) := by
  by_cases h : ∃ c, Within context c
  · obtain ⟨c, hc⟩ := h
    rw [withTrace_of_within hc]
    split_ifs
    · rw [filter_replaceText hparent]
    · rw [filter_replaceText hstate, filter_replaceText hparent]
  · rw [withTrace_of_not_within (not_exists.mp h)]

theorem visible_parentChars (c : SpanContext) : Text.Visible (String.ofList c.parentChars) := by
  intro d hd
  rw [String.toList_ofList, SpanContext.parentChars] at hd
  simp only [List.mem_append, List.mem_cons] at hd
  have hversion : "00-".toList.all Text.isVisible = true := by decide
  have hhyphen : Text.isVisible '-' = true := by decide
  rcases hd with ((hd | hd) | rfl | hd) | rfl | hd
  · exact List.all_eq_true.mp hversion d hd
  · exact Text.isVisible_of_mem_hexDigits hd
  · exact hhyphen
  · exact Text.isVisible_of_mem_hexDigits hd
  · exact hhyphen
  · exact Text.isVisible_of_mem_hexDigits hd

theorem values_withTrace_parent (h : Within context c) :
    (headers.withTrace context).values traceParentHeader = [Text.bytes (String.ofList c.parentChars)] := by
  have hlegal := (visible_parentChars c).readable.legal
  have hne : traceParentHeader ≠ traceStateHeader := by decide
  rw [withTrace_of_within h]
  split_ifs
  · exact values_replaceText_self hlegal
  · rw [values_replaceText_of_ne hne, values_replaceText_self hlegal]

theorem values_withTrace_state (h : Within context c) : (headers.withTrace context).values traceStateHeader =
    if c.stateText ≠ "" ∧ Legal (Text.bytes c.stateText) then [Text.bytes c.stateText]
    else headers.values traceStateHeader := by
  have hne : traceStateHeader ≠ traceParentHeader := by decide
  rw [withTrace_of_within h]
  by_cases hempty : c.stateText = ""
  · rw [if_pos hempty, if_neg fun hboth => hboth.1 hempty, values_replaceText_of_ne hne]
  · rw [if_neg hempty]
    by_cases hlegal : Legal (Text.bytes c.stateText)
    · rw [if_pos ⟨hempty, hlegal⟩, values_replaceText_self hlegal]
    · rw [if_neg fun hboth => hlegal hboth.2, replaceText_of_not_legal hlegal, values_replaceText_of_ne hne]

theorem requestId?_eq_some_iff {text : String} : headers.requestId? = some text ↔
    ∃ value, (headers.values requestIdHeader).head? = some value ∧ Readable value ∧ Text.bytes text = value := by
  simp only [requestId?, text?, Option.bind_eq_some_iff, headerText?_eq_some_iff_bytes, head?_values]

/-- **What a request tells.** Whatever headers, span and correlation id there are: the id is told if it may stand in a
header and is read if it is readable, the place in the trace is told if both ids are there and is read back as it was,
the entries of the vendors are told if there are any and they are legal, and nothing else is changed. -/
theorem withCorrelation_told (headers : Headers) (context : Option SpanContext) (requestId : String) :
    Told headers context requestId (headers.withCorrelation context requestId) := by
  have hparent : traceParentHeader ≠ requestIdHeader := by decide
  have hstate : traceStateHeader ≠ requestIdHeader := by decide
  constructor
  case id => exact values_replaceText_self
  case idKept =>
    intro h
    rw [withCorrelation, replaceText_of_not_legal h]
    exact values_eq_of_filter (filter_withTrace (p := fun found => decide (found = requestIdHeader)) (by decide)
      (by decide))
  case read => exact fun text => requestId?_eq_some_iff
  case parent =>
    intro c h
    refine ⟨_, (values_replaceText_of_ne hparent).trans (values_withTrace_parent h), ?_⟩
    rw [TraceParent.ofValue?, Text.headerText?_of_visible (visible_parentChars c), Option.bind_some,
      TraceParent.ofText?_parentChars]
  case parentKept =>
    intro h
    rw [withCorrelation, values_replaceText_of_ne hparent, withTrace_of_not_within h]
  case state =>
    intro c h hsome hlegal
    rw [withCorrelation, values_replaceText_of_ne hstate, values_withTrace_state h, if_pos ⟨hsome, hlegal⟩]
  case stateKept =>
    intro h
    rw [withCorrelation, values_replaceText_of_ne hstate]
    by_cases hwithin : ∃ c, Within context c
    · obtain ⟨c, hc⟩ := hwithin
      rw [values_withTrace_state hc, if_neg fun hboth => (h c hc).elim hboth.1 fun hnot => hnot hboth.2]
    · rw [withTrace_of_not_within (not_exists.mp hwithin)]
  case others =>
    rw [withCorrelation]
    have hnames (name : String) : name ∈ toldNames → decide (name ∉ toldNames) = false := by simp
    rw [filter_replaceText (p := fun found => decide (found ∉ toldNames)) (hnames _ (by simp [toldNames])),
      filter_withTrace (p := fun found => decide (found ∉ toldNames)) (hnames _ (by simp [toldNames]))
        (hnames _ (by simp [toldNames]))]

end Headers

end WalletTopUp
