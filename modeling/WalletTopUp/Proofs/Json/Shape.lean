import WalletTopUp.Json.Form
import WalletTopUp.Proofs.Json.Tree
import WalletTopUp.Proofs.Money.Text
import WalletTopUp.Proofs.Time.InstantText
import WalletTopUp.Proofs.Uuid

/-!
# Reading back what was written: records

What a shape writes it reads back, but for the sign of an amount that is zero: it is written and not read. The
law needs that names can be told apart, that there are no floats, that what stands behind an optional field
could not be taken for `null`, and that values of any form can be read back (`Shape.Regular`). It is proved
along the shape: the fields of a record fill the slots of the reader from the first to the last.
-/

namespace WalletTopUp.Json

/-! ## Scalars -/

/-- The value that is read back. -/
def Scalar.plain : (kind : Scalar) → kind.Value → kind.Value
  | text, s => s
  | int64, n => n
  | flag, b => b
  | float, x => x
  | amount, a => a.plain
  | instant, t => t
  | uuid, u => u

theorem reads_scalar {kind : Scalar} {cs : List Char} {found : Lexeme} {value : kind.Value}
    (hlexeme : Reads readLexeme cs found) (hvalue : kind.ofLexeme found = .ok value) (depth : Nat) :
    Reads ((Shape.scalar kind).read depth) cs value := by
  intro rest hrest
  simp only [Shape.read, hlexeme rest hrest, hvalue, bind, Except.bind, pure, Except.pure]

theorem reads_scalar_chars {kind : Scalar} (hkind : kind ≠ .float) (depth : Nat) (value : kind.Value) :
    Reads ((Shape.scalar kind).read depth) (kind.chars value) (kind.plain value) := by
  cases kind with
  | text => exact reads_scalar (readLexeme_string value) rfl depth
  | int64 =>
    obtain ⟨n, hn⟩ := value
    have hvalue : Scalar.int64.ofLexeme (.number (.integer n)) = .ok ⟨n, hn⟩ := by
      simp only [Scalar.ofLexeme, word?, dif_pos hn, orWrongValue]
    exact reads_scalar (readLexeme_integer ⟨hn.1, Int.lt_trans hn.2 (by decide)⟩) hvalue depth
  | flag => exact reads_scalar (readLexeme_flag value) rfl depth
  | float => exact absurd rfl hkind
  | amount =>
    have hvalue : Scalar.amount.ofLexeme (.text value.text) = .ok value.plain := by
      simp only [Scalar.ofLexeme, Decimal.ofText?_text, orWrongValue]
    exact reads_scalar (readLexeme_string value.text) hvalue depth
  | instant =>
    have hvalue : Scalar.instant.ofLexeme (.text value.text) = .ok value := by
      simp only [Scalar.ofLexeme, Instant.ofText_text, Except.mapError]
    exact reads_scalar (readLexeme_string value.text) hvalue depth
  | uuid =>
    have hvalue : Scalar.uuid.ofLexeme (.text value.text) = .ok value := by
      simp only [Scalar.ofLexeme, Uuid.ofText_text, Except.mapError]
    exact reads_scalar (readLexeme_string value.text) hvalue depth

/-! ## Choices -/

theorem choose_name {names : List String} (h : names.Nodup) (chosen : Fin names.length) :
    choose names names[chosen] = .ok chosen := by
  have hfound : names.finIdxOf? names[chosen] = some chosen := by
    refine List.finIdxOf?_eq_some_iff.mpr ⟨rfl, fun earlier hlt => ?_⟩
    exact List.pairwise_iff_getElem.mp h _ _ earlier.isLt chosen.isLt hlt
  rw [choose, hfound]

theorem readChoice_written {names : List String} (h : names.Nodup) (chosen : Fin names.length) :
    Reads (readChoice names) (stringChars names[chosen]) chosen := by
  intro rest _
  rw [written_stringChars, readChoice, skipSpace_cons rfl]
  simp only [readKey_written, choose_name h, bind, Except.bind, pure, Except.pure]

/-! ## Optional values -/

section

variable {α : Type} {content : Source → Except Failure (α × Source)}

theorem readOptional_none : Reads (readOptional content) ['n', 'u', 'l', 'l'] none :=
  fun _ _ => rfl

theorem readOptional_some {cs : List Char} {a : α} (h : Reads content cs a) (hopens : Opens cs) :
    Reads (readOptional content) cs (some a) := by
  intro rest hrest
  have hcontent := h rest hrest
  obtain ⟨c, others, rfl, hspace, -, hnull⟩ := hopens
  rw [written_cons, List.cons_append] at hcontent ⊢
  rw [readOptional, skipSpace_cons hspace]
  split
  · next hhead =>
    cases hhead
    exact absurd rfl hnull
  · rw [hcontent]
    rfl

end

/-! ## Shapes -/

def Fields.names : Fields → List String
  | .done => []
  | .field name _ rest => name :: rest.names

def Fields.filled : (fields : Fields) → fields.Values → fields.Slots
  | .done, () => ()
  | .field _ _ rest, (value, values) => (some value, rest.filled values)

theorem Fields.complete_filled (fields : Fields) (values : fields.Values) :
    fields.complete (fields.filled values) = .ok values := by
  match fields, values with
  | .done, () => rfl
  | .field _ _ rest, (value, values) =>
    change (rest.complete (rest.filled values)).map (fun values => (value, values)) = _
    rw [rest.complete_filled values]
    rfl

def Fields.parts : (fields : Fields) → fields.Values → List (String × List Char)
  | .done, () => []
  | .field name shape rest, (value, values) => (name, shape.chars value) :: rest.parts values

theorem Fields.memberChars_eq (fields : Fields) (values : fields.Values) :
    fields.memberChars values = (fields.parts values).map memberText := by
  match fields, values with
  | .done, () => simp [memberChars, parts]
  | .field _ _ rest, (value, values) =>
    rw [memberChars, rest.memberChars_eq values]
    rfl

theorem Fields.names_parts (fields : Fields) (values : fields.Values) :
    (fields.parts values).map (·.1) = fields.names := by
  match fields, values with
  | .done, () => rfl
  | .field name _ rest, (value, values) => exact congrArg (name :: ·) (rest.names_parts values)

mutual

/-- The value that is read back. -/
def Shape.plain : (shape : Shape) → shape.Value → shape.Value
  | .scalar kind, value => kind.plain value
  | .choice _, chosen => chosen
  | .optional _, none => none
  | .optional content, some value => some (content.plain value)
  | .any, value => value
  | .asWritten, value => value
  | .record _ fields, values => fields.plain values

def Fields.plain : (fields : Fields) → fields.Values → fields.Values
  | .done, () => ()
  | .field _ shape rest, (value, values) => (shape.plain value, rest.plain values)

end

mutual

/-- A value of the shape that can be read back, with at most `depth` containers inside one another. -/
def Shape.Regular : (shape : Shape) → (depth : Nat) → shape.Value → Prop
  | .scalar kind, _, _ => kind ≠ .float
  | .choice names, _, _ => names.Nodup
  | .optional _, _, none => True
  | .optional content, depth, some value => content.Regular depth value ∧ Opens (content.chars value)
  | .any, depth, value => value.Exact insertMember depth
  | .asWritten, depth, value => value.Exact appendMember depth
  | .record _ _, 0, _ => False
  | .record _ fields, depth + 1, values => fields.Regular depth values

def Fields.Regular : (fields : Fields) → (depth : Nat) → fields.Values → Prop
  | .done, _, () => True
  | .field name shape rest, depth, (value, values) =>
    name ∉ rest.names ∧ shape.Regular depth value ∧ rest.Regular depth values

end

section
variable {names : List String} {name : String} {shape : Shape} {rest : Fields} {depth : Nat}

@[simp] theorem Scalar.plain_text (s : String) : Scalar.text.plain s = s := rfl

@[simp] theorem Scalar.plain_int64 (n : Word) : Scalar.int64.plain n = n := rfl

@[simp] theorem Scalar.plain_flag (b : Bool) : Scalar.flag.plain b = b := rfl

@[simp] theorem Scalar.plain_amount (a : Decimal) : Scalar.amount.plain a = a.plain := rfl

@[simp] theorem Scalar.plain_instant (t : Instant) : Scalar.instant.plain t = t := rfl

@[simp] theorem Scalar.plain_uuid (u : Uuid) : Scalar.uuid.plain u = u := rfl

@[simp] theorem Shape.plain_scalar (kind : Scalar) (value : kind.Value) :
    (Shape.scalar kind).plain value = kind.plain value := rfl

@[simp] theorem Fields.plain_field (values : (Fields.field name shape rest).Values) :
    (Fields.field name shape rest).plain values = (shape.plain values.1, rest.plain values.2) := rfl

@[simp] theorem Fields.names_done : Fields.done.names = [] := rfl

@[simp] theorem Fields.names_field : (Fields.field name shape rest).names = name :: rest.names := rfl

@[simp] theorem Shape.regular_scalar {kind : Scalar} {value : kind.Value} :
    (Shape.scalar kind).Regular depth value ↔ kind ≠ .float := Iff.rfl

@[simp] theorem Shape.regular_choice {chosen : Fin names.length} :
    (Shape.choice names).Regular depth chosen ↔ names.Nodup := Iff.rfl

@[simp] theorem Fields.regular_done {values : Fields.done.Values} : Fields.done.Regular depth values := trivial

@[simp] theorem Fields.regular_field {values : (Fields.field name shape rest).Values} :
    (Fields.field name shape rest).Regular depth values ↔
      name ∉ rest.names ∧ shape.Regular depth values.1 ∧ rest.Regular depth values.2 := Iff.rfl

end

theorem Shape.plain_optional (content : Shape) (h : ∀ value, content.plain value = value)
    (value : Option content.Value) : (Shape.optional content).plain value = value := by
  cases value with
  | none => rfl
  | some value => exact congrArg some (h value)

theorem Shape.regular_optional {content : Shape} {depth : Nat} {value : Option content.Value}
    (h : ∀ a ∈ value, content.Regular depth a ∧ Opens (content.chars a)) :
    (Shape.optional content).Regular depth value := by
  cases value with
  | none => trivial
  | some a => exact h a rfl

/-- The field with this key takes exactly the value of the member, with its colon, into its slot. -/
def Fields.Takes (fields : Fields) (depth : Nat) (key : String) (cs : List Char) (slots filled : fields.Slots) : Prop :=
  ∀ rest, Ends rest → fields.readMember depth key slots (written (':' :: cs) ++ rest) = some (.ok (filled, rest))

/-- What the other fields take does not touch the slot of the first one. -/
theorem Fields.steps_of_rest {name : String} {shape : Shape} {rest : Fields} {depth : Nat}
    {parts : List (String × List Char)} {slots filled : rest.Slots} (h : Steps (rest.Takes depth) parts slots filled)
    (hname : name ∉ parts.map (·.1)) (slot : Option shape.Value) :
    Steps ((Fields.field name shape rest).Takes depth) parts (slot, slots) (slot, filled) := by
  induction h with
  | done slots => exact .done _
  | @member key cs parts slots next filled first others ih =>
    obtain ⟨hkey, hothers⟩ := not_or.mp (mt List.mem_cons.mpr hname)
    refine .member (fun more hmore => ?_) (ih hothers)
    rw [readMember, if_neg (Ne.symm hkey), first more hmore]
    rfl

theorem reads_record {name : String} {fields : Fields} {depth : Nat} {values read : fields.Values}
    (h : Steps (fields.Takes depth) (fields.parts values) fields.empty (fields.filled read)) :
    Reads ((Shape.record name fields).read (depth + 1)) ((Shape.record name fields).chars values) read := by
  intro rest _
  let member (key : String) (slots : fields.Slots) (src : Source) : Except Failure (fields.Slots × Source) :=
    (fields.readMember depth key slots src).getD
      ((expect ':' src).bind fun src => (skipValue src).map fun rest => (slots, rest))
  have hsteps : Steps (Takes member) (fields.parts values) fields.empty (fields.filled read) := by
    refine h.imp fun key cs slots filled htakes more hmore => ?_
    simp only [member, htakes more hmore, Option.getD_some]
  have hmembers := members_written hsteps rest
  rw [← fields.memberChars_eq values] at hmembers
  have hread (src : Source) : (Shape.record name fields).read (depth + 1) (.ok '\x7b' :: src) =
      (members member fields.empty src).bind fun taken =>
        (fields.complete taken.1).bind fun values => .ok (values, taken.2) := by
    rw [Shape.read, readLexeme_mapping]
    rfl
  rw [Shape.chars, written_append, written_cons, List.append_assoc, List.cons_append, hread]
  simp only [written_cons, written_nil, List.cons_append, List.nil_append, hmembers, fields.complete_filled,
    Except.bind]

mutual

theorem Shape.reads (shape : Shape) (depth : Nat) (value : shape.Value) (h : shape.Regular depth value) :
    Reads (shape.read depth) (shape.chars value) (shape.plain value) := by
  match shape, depth, value with
  | .scalar kind, depth, value => exact reads_scalar_chars h depth value
  | .choice names, depth, chosen => exact readChoice_written h chosen
  | .optional content, depth, none => exact readOptional_none
  | .optional content, depth, some value => exact readOptional_some (content.reads depth value h.1) h.2
  | .any, depth, value => exact readJoined_written h
  | .asWritten, depth, value => exact readJoined_written h
  | .record name fields, depth + 1, values =>
    have hsteps := fields.steps depth values h
    exact reads_record hsteps
theorem Fields.steps (fields : Fields) (depth : Nat) (values : fields.Values) (h : fields.Regular depth values) :
    Steps (fields.Takes depth) (fields.parts values) fields.empty (fields.filled (fields.plain values)) := by
  match fields, values with
  | .done, () => exact .done _
  | .field name shape rest, (value, values) =>
    obtain ⟨hname, hvalue, hvalues⟩ := h
    have hfirst := shape.reads depth value hvalue
    have hothers := rest.steps depth values hvalues
    refine .member (fun more hmore => ?_) (Fields.steps_of_rest hothers (rest.names_parts values ▸ hname) _)
    rw [Fields.readMember, if_pos rfl, expect_written rfl]
    simp only [Fields.empty, Option.isSome_none, Bool.false_eq_true, if_false, hfirst more hmore, under,
      Except.mapError, bind, Except.bind, pure, Except.pure]

end

/-! ## Types with a JSON form -/

theorem Shape.whole_written {shape : Shape} {value : shape.Value} (h : shape.Regular maxDepth value) :
    shape.whole (written (shape.chars value)) = .ok (shape.plain value) := by
  have hread := shape.reads maxDepth value h [] trivial
  rw [List.append_nil] at hread
  simp only [whole, hread, expectEnd, skipSpace, bind, Except.bind, pure, Except.pure]

section

variable {α : Type} [Form α]

def plain (a : α) : α := Form.unpack ((Form.shape α).plain (Form.pack a))

/-- **Decoding undoes encoding**, but for the signs of zeros. -/
theorem decode_encode {a : α} (h : (Form.shape α).Regular maxDepth (Form.pack a)) :
    decode (encode a) = .ok (plain a) := by
  rw [decode, encode, symbols_ofList, decodeSource, Shape.whole_written h]
  rfl

end

end WalletTopUp.Json
