import WalletTopUp.Json.Shape
import WalletTopUp.Proofs.Json.Members
import WalletTopUp.Proofs.Number.Binary64

/-!
# Numbers that are read

A literal stands for a number of the format, however it is scaled (`Literal.value?_canonical`). What holds of every
scalar that can be read holds of all the scalars of a record that is read (`Shape.all_of_read`), so all floating-point
numbers in it are numbers of the format (`Shape.canonical_of_whole`).
-/

namespace WalletTopUp.Json

/-! ## Literals -/

section
variable {x y : Binary64}

theorem scaleUp_canonical {exponent : Nat} (hx : x.Canonical) (h : scaleUp x exponent = some y) : y.Canonical := by
  unfold scaleUp at h
  split at h
  · split at h
    · cases h
    · cases h
      exact Binary64.mul_canonical _ _
  · split at h
    · cases h
      exact hx
    · cases h

theorem scaleDown_canonical (hx : x.Canonical) (steps exponent : Nat) : (scaleDown steps x exponent).Canonical := by
  induction steps generalizing x exponent with
  | zero => exact hx
  | succ steps ih =>
    unfold scaleDown
    split
    · exact Binary64.div_canonical _ _
    · split
      · exact hx
      · exact ih (Binary64.div_canonical _ _) _

theorem scaled_canonical {significand : Nat} {exponent : Int} (h : scaled significand exponent = some y) :
    y.Canonical := by
  have hx : (Binary64.ofNat significand).Canonical := Binary64.round_canonical _ _ _
  unfold scaled at h
  dsimp only at h
  split at h
  · exact scaleUp_canonical hx h
  · cases h
    exact scaleDown_canonical hx _ _

theorem Literal.magnitude?_canonical {l : Literal} (h : l.magnitude? = some y) : y.Canonical := by
  unfold Literal.magnitude? at h
  dsimp only at h
  split at h
  · exact scaled_canonical h
  · split at h
    · cases h
    · cases h
      exact Binary64.zero_canonical _

end

/-- The number is one that a literal can stand for. -/
def Number.Canonical : Number → Prop
  | integer n => n < 2 ^ 64
  | float x => x.Canonical

theorem Literal.integer?_lt {l : Literal} {n : Int} (h : l.integer? = some n) : n < 2 ^ 64 := by
  unfold Literal.integer? at h
  rw [Nat.pow_eq, Nat.pow_eq] at h
  dsimp only at h
  split at h
  · cases h
  · split at h
    · split at h
      · cases h
        omega
      · cases h
    · split at h
      · next hlt =>
        cases h
        exact_mod_cast hlt
      · cases h

theorem Literal.value?_canonical {l : Literal} {x : Number} (h : l.value? = some x) : x.Canonical := by
  unfold Literal.value? at h
  split at h
  · next n hn =>
    cases h
    exact Literal.integer?_lt hn
  · obtain ⟨y, hy, rfl⟩ := Option.map_eq_some_iff.mp h
    have hcanonical := Literal.magnitude?_canonical hy
    show (if l.negative then y.neg else y).Canonical
    split
    · exact Binary64.neg_canonical hcanonical
    · exact hcanonical

/-! ## Lexemes -/

section
variable {src rest : Source}

theorem readNumber_canonical {x : Number} (h : readNumber src = .ok (x, rest)) : x.Canonical := by
  obtain ⟨⟨l, after⟩, -, hvalue⟩ := exists_of_bind_ok h
  dsimp only at hvalue
  split at hvalue
  · next hl =>
    cases hvalue
    exact Literal.value?_canonical hl
  · cases hvalue

theorem readLexeme_canonical {x : Number} (h : readLexeme src = .ok (.number x, rest)) : x.Canonical := by
  unfold readLexeme at h
  split at h
  · cases h
  · cases h
  · split_ifs at h
    · obtain ⟨_, _, ⟨⟩⟩ := exists_of_map_ok h
    · obtain ⟨⟨y, after⟩, hnumber, ⟨⟩⟩ := exists_of_map_ok h
      exact readNumber_canonical hnumber
    · cases h
    · cases h
    · obtain ⟨_, _, ⟨⟩⟩ := exists_of_map_ok h
    · obtain ⟨_, _, ⟨⟩⟩ := exists_of_map_ok h
    · obtain ⟨_, _, ⟨⟩⟩ := exists_of_map_ok h

/-! ## Records -/

theorem moreMembers_keep {σ : Type} {member : String → σ → Source → Except Failure (σ × Source)} {Inv : σ → Prop}
    {fuel : Nat} {s t : σ} (hstep : ∀ name s t src rest, member name s src = .ok (t, rest) → Inv s → Inv t)
    (h : moreMembers member fuel s src = .ok (t, rest)) (hs : Inv s) : Inv t := by
  induction fuel generalizing s src with
  | zero => cases h
  | succ fuel ih =>
    rcases moreMembers_cases h with ⟨-, rfl⟩ | ⟨_, _, -, -, name, colon, next, middle, -, hmember, hrest⟩
    · exact hs
    · exact ih hrest (hstep _ _ _ _ _ hmember hs)

theorem members_keep {σ : Type} {member : String → σ → Source → Except Failure (σ × Source)} {Inv : σ → Prop} {s t : σ}
    (hstep : ∀ name s t src rest, member name s src = .ok (t, rest) → Inv s → Inv t)
    (h : members member s src = .ok (t, rest)) (hs : Inv s) : Inv t := by
  rcases members_cases h with ⟨-, rfl⟩ | ⟨_, _, -, name, colon, next, middle, -, hmember, hrest⟩
  · exact hs
  · exact moreMembers_keep hstep hrest (hstep _ _ _ _ _ hmember hs)

end

variable (P : (kind : Scalar) → kind.Value → Prop)

mutual

def Shape.All : (shape : Shape) → shape.Value → Prop
  | .scalar kind, value => P kind value
  | .choice _, _ => True
  | .optional _, none => True
  | .optional content, some value => content.All value
  | .any, _ => True
  | .asWritten, _ => True
  | .record _ fields, values => fields.All values

def Fields.All : (fields : Fields) → fields.Values → Prop
  | .done, () => True
  | .field _ shape rest, (value, values) => shape.All value ∧ rest.All values

end

/-- All scalars of the fields that have been read have the property. -/
def Fields.AllSlots : (fields : Fields) → fields.Slots → Prop
  | .done, () => True
  | .field _ shape rest, (slot, slots) => (∀ value, slot = some value → shape.All P value) ∧ rest.AllSlots slots

variable {P}

theorem Fields.allSlots_empty (fields : Fields) : fields.AllSlots P fields.empty := by
  match fields with
  | .done => trivial
  | .field _ _ rest => exact ⟨nofun, rest.allSlots_empty⟩

theorem Shape.all_absent {shape : Shape} {value : shape.Value} (h : shape.absent? = some value) :
    shape.All P value := by
  cases shape <;> cases h
  trivial

theorem Fields.all_of_complete {fields : Fields} {slots : fields.Slots} {values : fields.Values}
    (hslots : fields.AllSlots P slots) (h : fields.complete slots = .ok values) : fields.All P values := by
  match fields, slots, values with
  | .done, (), () => trivial
  | .field name shape rest, (slot, slots), values =>
    obtain ⟨hslot, hrest⟩ := hslots
    unfold complete at h
    split at h
    · cases h
    next value hvalue =>
      obtain ⟨others, hothers, rfl⟩ := exists_of_map_ok h
      refine ⟨?_, rest.all_of_complete hrest hothers⟩
      cases slot with
      | some read =>
        cases hvalue
        exact hslot value rfl
      | none => exact Shape.all_absent hvalue

variable (P) in
def EveryRead : Prop := ∀ (kind : Scalar) (found : Lexeme) (src rest : Source) (value : kind.Value),
  readLexeme src = .ok (found, rest) → kind.ofLexeme found = .ok value → P kind value

mutual

/-- What holds of every scalar that is read holds of the scalars of every value that is read. -/
theorem Shape.all_of_read (hread : EveryRead P) (shape : Shape) {depth : Nat} {src rest : Source} {value : shape.Value}
    (h : shape.read depth src = .ok (value, rest)) : shape.All P value := by
  match shape with
  | .scalar kind =>
    unfold Shape.read at h
    obtain ⟨⟨found, after⟩, hfound, h⟩ := exists_of_bind_ok h
    obtain ⟨read, hvalue, ⟨⟩⟩ := exists_of_bind_ok h
    exact hread kind found src _ _ hfound hvalue
  | .choice names => trivial
  | .optional content =>
    unfold Shape.read readOptional at h
    split at h
    · obtain ⟨_, -, ⟨⟩⟩ := exists_of_map_ok h
      trivial
    · obtain ⟨⟨inner, after⟩, hinner, ⟨⟩⟩ := exists_of_map_ok h
      exact content.all_of_read hread hinner
  | .any => trivial
  | .asWritten => trivial
  | .record name fields =>
    unfold Shape.read at h
    obtain ⟨⟨found, after⟩, hfound, h⟩ := exists_of_bind_ok h
    dsimp only at h
    split at h
    · exact fields.all_of_readItems hread h
    · obtain ⟨⟨slots, behind⟩, hmembers, h⟩ := exists_of_bind_ok h
      obtain ⟨values, hcomplete, ⟨⟩⟩ := exists_of_bind_ok h
      refine Fields.all_of_complete (members_keep ?_ hmembers fields.allSlots_empty) hcomplete
      intro key slots next src rest hmember hslots
      rcases htaken : fields.readMember _ key slots src with _ | taken
      · rw [htaken] at hmember
        obtain ⟨_, -, hmember⟩ := exists_of_bind_ok hmember
        obtain ⟨_, -, ⟨⟩⟩ := exists_of_map_ok hmember
        exact hslots
      · rw [htaken] at hmember
        exact fields.allSlots_of_readMember hread htaken hmember hslots
    · cases h
    · cases h
    · cases h

theorem Fields.allSlots_of_readMember (hread : EveryRead P) (fields : Fields) {depth : Nat} {key : String}
    {slots next : fields.Slots} {src rest : Source} {taken : Except Failure (fields.Slots × Source)}
    (htaken : fields.readMember depth key slots src = some taken) (h : taken = .ok (next, rest))
    (hslots : fields.AllSlots P slots) : fields.AllSlots P next := by
  match fields, slots with
  | .done, () => trivial
  | .field name shape others, (slot, slots) =>
    obtain ⟨hslot, hothers⟩ := hslots
    unfold Fields.readMember at htaken
    split at htaken
    · obtain rfl := Option.some.inj htaken
      split at h
      · cases h
      · obtain ⟨colon, -, h⟩ := exists_of_bind_ok h
        obtain ⟨⟨value, after⟩, hvalue, ⟨⟩⟩ := exists_of_bind_ok h
        refine ⟨?_, hothers⟩
        rintro _ ⟨⟩
        exact shape.all_of_read hread (mapError_eq_ok_iff.mp hvalue)
    · obtain ⟨taken', htaken', rfl⟩ := Option.map_eq_some_iff.mp htaken
      obtain ⟨⟨slots', after⟩, hslots', ⟨⟩⟩ := exists_of_map_ok h
      exact ⟨hslot, others.allSlots_of_readMember hread htaken' hslots' hothers⟩

theorem Fields.all_of_readItems (hread : EveryRead P) (fields : Fields) {depth position total : Nat} {name : String}
    {src rest : Source} {values : fields.Values}
    (h : fields.readItems depth name total position src = .ok (values, rest)) : fields.All P values := by
  match fields with
  | .done => trivial
  | .field _ shape others =>
    unfold Fields.readItems at h
    have hitem : ∃ start, (under (.index position) (shape.read depth start)).bind (fun (value, after) =>
        (others.readItems depth name total (position + 1) after).bind fun (values, rest) =>
          .ok ((value, values), rest)) = .ok (values, rest) := by
      dsimp only at h
      split at h
      · cases h
      · cases h
      · exact ⟨_, h⟩
      · split at h
        · cases h
        · exact ⟨_, h⟩
      · cases h
    obtain ⟨start, h⟩ := hitem
    obtain ⟨⟨value, after⟩, hvalue, h⟩ := exists_of_bind_ok h
    obtain ⟨⟨values, behind⟩, hvalues, ⟨⟩⟩ := exists_of_bind_ok h
    exact ⟨shape.all_of_read hread (mapError_eq_ok_iff.mp hvalue), others.all_of_readItems hread hvalues⟩

end

/-! ## Floating-point numbers -/

/-- The scalar is a number of the format if it is a floating-point number. -/
def Scalar.Canonical : (kind : Scalar) → kind.Value → Prop
  | .float, x => x.Canonical
  | _, _ => True

theorem Scalar.canonical_of_ofLexeme (kind : Scalar) {found : Lexeme} {src rest : Source} {value : kind.Value}
    (hfound : readLexeme src = .ok (found, rest)) (h : kind.ofLexeme found = .ok value) : kind.Canonical value := by
  cases kind with
  | float =>
    match found with
    | .number (.integer n) =>
      cases h
      exact Binary64.round_canonical _ _ _
    | .number (.float x) =>
      cases h
      exact readLexeme_canonical hfound
    | .null | .flag _ | .text _ | .sequence | .mapping => cases h
  | _ => trivial

/-- All floating-point numbers of a record that is read are numbers of the format. -/
theorem Shape.canonical_of_whole {shape : Shape} {src : Source} {value : shape.Value}
    (h : shape.whole src = .ok value) :
    shape.All Scalar.Canonical value := by
  obtain ⟨⟨read, rest⟩, hread, h⟩ := exists_of_bind_ok h
  obtain ⟨_, -, ⟨⟩⟩ := exists_of_bind_ok h
  exact shape.all_of_read (fun kind _ _ _ _ => kind.canonical_of_ofLexeme) hread

end WalletTopUp.Json
