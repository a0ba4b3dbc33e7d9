import WalletTopUp.Http.Headers
import WalletTopUp.Text.Hex

/-!
# Trace contexts

A request to another service carries a correlation id and, within a span, the span's place in its trace:
`traceparent` holds the version, the trace id, the span id and the flags in fixed numbers of hexadecimal
digits, and `tracestate` holds the entries of the vendors. A span without a valid id says nothing.
-/

namespace WalletTopUp

/-- The header with the correlation id. -/
def requestIdHeader : String := "x-request-id"

/-- The header with the place in the trace. -/
def traceParentHeader : String := "traceparent"

/-- The header with the entries of the vendors. -/
def traceStateHeader : String := "tracestate"

/-- The place of a span in its trace. -/
structure SpanContext where
  traceId : BitVec 128
  spanId : BitVec 64
  flags : BitVec 8
  /-- The entries of the vendors, the latest first. -/
  state : List (String × String)
  deriving DecidableEq, Repr

namespace SpanContext

/-- The bit that says whether the span is recorded. -/
def sampledFlag : BitVec 8 := 1#8

def isValid (c : SpanContext) : Bool :=
  c.traceId != 0#128 && c.spanId != 0#64

/-- The flags of a span that is recorded or not. -/
def flagsOf (flags : BitVec 8) (sampled : Bool) : BitVec 8 :=
  if sampled then flags ||| sampledFlag else flags &&& ~~~sampledFlag

/-- A span that begins a trace. -/
def root (traceId : BitVec 128) (spanId : BitVec 64) (sampled : Bool) : SpanContext :=
  ⟨traceId, spanId, flagsOf 0#8 sampled, []⟩

/-- A span below another one: trace and vendor entries are the parent's. -/
def child (parent : SpanContext) (spanId : BitVec 64) (sampled : Bool) : SpanContext :=
  ⟨parent.traceId, spanId, flagsOf parent.flags sampled, parent.state⟩

def parentChars (c : SpanContext) : List Char :=
  "00-".toList ++ Text.hexDigits 32 c.traceId.toNat ++ '-' :: Text.hexDigits 16 c.spanId.toNat ++
    '-' :: Text.hexDigits 2 c.flags.toNat

def stateText (c : SpanContext) : String :=
  ",".intercalate (c.state.map fun (key, value) => key ++ "=" ++ value)

end SpanContext

namespace TraceState

def isKeyByte (b : UInt8) : Bool :=
  (0x61 ≤ b && b ≤ 0x7a) || (0x30 ≤ b && b ≤ 0x39)

/-- The most bytes of a key or a value. -/
def maxLength : Nat := 256

/-- The most bytes of the name of a vendor, after the sign `@`. -/
def maxVendorLength : Nat := 13

/-- The bytes that may stand in a key behind the first one. -/
def isInnerByte (b : UInt8) : Bool :=
  isKeyByte b || (Text.bytes "_-*/").contains b

/-- A key: a name, and a vendor behind an `@` if there is one. -/
def isKey (key : String) : Bool :=
  let bytes := Text.bytes key
  let name := bytes.takeWhile (· != 0x40)
  let vendor := bytes.drop (name.length + 1)
  bytes.length ≤ maxLength && bytes.head?.all isKeyByte && name.all isInnerByte &&
    vendor.length ≤ maxVendorLength && vendor.head?.all isKeyByte && vendor.all isInnerByte

/-- A value holds no mark of a list of entries. -/
def isValue (value : String) : Bool :=
  (Text.bytes value).length ≤ maxLength && !value.contains ',' && !value.contains '='

def ofEntries (entries : List (String × String)) : List (String × String) :=
  if entries.all fun (key, value) => isKey key && isValue value then entries else []

end TraceState

namespace Headers

/-- Put the place of the current span into the headers. -/
def withTrace (headers : Headers) (context : Option SpanContext) : Headers :=
  match context with
  | none => headers
  | some c =>
    if c.isValid then
      let headers := headers.replaceText traceParentHeader (String.ofList c.parentChars)
      if c.stateText.isEmpty then headers else headers.replaceText traceStateHeader c.stateText
    else headers

/-- Put the place of the current span and the correlation id into the headers. -/
def withCorrelation (headers : Headers) (context : Option SpanContext) (requestId : String) :
    Headers :=
  (headers.withTrace context).replaceText requestIdHeader requestId

def requestId? (headers : Headers) : Option String := headers.text? requestIdHeader

end Headers

end WalletTopUp
