import WalletTopUp.Json.Form
import WalletTopUp.Text.Characters

/-!
# Requests for a top-up

The payment method of a request stays the text that the caller sent. A request is checked before
anything else happens: the amount is above zero, the method and the phone number are not blank, the
phone number has at most 20 characters and the description at most 255. All violations are reported,
field by field, a length before a blank.
-/

namespace WalletTopUp

/-- What a caller asks for. -/
structure TopUpRequest where
  amount : Decimal
  paymentMethod : String
  phoneNumber : String
  description : Option String
  deriving DecidableEq

namespace TopUpRequest

abbrev fields : Json.Fields :=
  .field "amount" (.scalar .amount) <|
  .field "payment_method" (.scalar .text) <|
  .field "phone_number" (.scalar .text) <|
  .field "description" (.optional (.scalar .text)) .done

instance : Json.Form TopUpRequest where
  shape := .record "TopUpRequest" fields
  pack := fun r => (r.amount, r.paymentMethod, r.phoneNumber, r.description, ())
  unpack := fun (amount, paymentMethod, phoneNumber, description, ()) =>
    ⟨amount, paymentMethod, phoneNumber, description⟩
  unpack_pack := fun _ => rfl

/-- The fields that are checked, in the order of their names. -/
inductive Field where
  | amount
  | description
  | paymentMethod
  | phoneNumber
  deriving DecidableEq, Repr

def Field.name : Field → String
  | amount => "amount"
  | description => "description"
  | paymentMethod => "payment_method"
  | phoneNumber => "phone_number"

/-- A rule that a field violates. -/
inductive Violation where
  | notPositive
  | blank
  | tooLong (most : Nat) (message : Option String)
  deriving DecidableEq, Repr

def Violation.code : Violation → String
  | notPositive => "amount_must_be_positive"
  | blank => "must_not_be_blank"
  | tooLong _ _ => "length"

/-- The message of a violation that has one of its own. -/
def Violation.message? : Violation → Option String
  | tooLong _ message => message
  | _ => none

def Violation.text (v : Violation) : String :=
  v.message?.getD ("Validation error: " ++ v.code)

/-- A field with what is wrong with it. -/
structure Finding where
  field : Field
  value : Json
  violations : List Violation

/-- The fields that violate a rule, in the order of their names. -/
structure Report where
  findings : List Finding

/-- A line for every field, its violations separated by commas. -/
def Report.text (r : Report) : String :=
  "\n".intercalate <| r.findings.map fun f =>
    f.field.name ++ ": " ++ ", ".intercalate (f.violations.map Violation.text)

def phoneLimit : Nat := 20

def descriptionLimit : Nat := 255

def brokenRule (broken : Bool) (v : Violation) : List Violation :=
  if broken then [v] else []

def violations (r : TopUpRequest) : Field → List Violation
  | .amount => brokenRule (!r.amount.isPositive) .notPositive
  | .description =>
    match r.description with
    | none => []
    | some d => brokenRule (descriptionLimit < d.length) (.tooLong descriptionLimit none)
  | .paymentMethod => brokenRule (Text.isAllBlank r.paymentMethod) .blank
  | .phoneNumber =>
    brokenRule (phoneLimit < r.phoneNumber.length)
      (.tooLong phoneLimit (some "phone number is too long")) ++
    brokenRule (Text.isAllBlank r.phoneNumber) .blank

/-- The value of a field, as the report shows it. -/
def value (r : TopUpRequest) : Field → Json
  | .amount => .text r.amount.text
  | .description => r.description.elim .null .text
  | .paymentMethod => .text r.paymentMethod
  | .phoneNumber => .text r.phoneNumber

/-- All checked fields, in the order of their names. -/
def checkedFields : List Field := [.amount, .description, .paymentMethod, .phoneNumber]

/-- The report on a request: the fields with violations. -/
def report (r : TopUpRequest) : Report :=
  ⟨(checkedFields.map fun f => ⟨f, r.value f, r.violations f⟩).filter fun f =>
    !f.violations.isEmpty⟩

/-- The report, if there is anything to report. -/
def validate (r : TopUpRequest) : Option Report :=
  if r.report.findings.isEmpty then none else some r.report

end TopUpRequest

end WalletTopUp
