import WalletTopUp.Proofs.Json.Shape
import WalletTopUp.View

/-!
# Records that are read back

What decoding makes of the records that are written: every record can be read back, a transaction if its metadata can
(`Json.Held`), and what is read is what was written but for the sign of an amount of nothing.
-/

namespace WalletTopUp.Json

/-! ## Values of any form -/

/-- A value of any form as records hold it, with at most `depth` containers inside one another: its numbers are
integers of 64 bits, signed or unsigned, and its objects have their members sorted by key. -/
inductive Held : (depth : Nat) → Json → Prop
  | null (depth : Nat) : Held depth null
  | flag (depth : Nat) (b : Bool) : Held depth (flag b)
  | integer (depth : Nat) {n : Int} (hlow : -0x8000_0000_0000_0000 ≤ n) (hhigh : n < 0x1_0000_0000_0000_0000) :
      Held depth (number (.integer n))
  | text (depth : Nat) (s : String) : Held depth (text s)
  | array {depth : Nat} {values : List Json} (hvalues : ∀ value ∈ values, Held depth value) :
      Held (depth + 1) (array values)
  | object {depth : Nat} {members : List (String × Json)} (hsorted : members.Pairwise fun a b => a.1 < b.1)
      (hmembers : ∀ member ∈ members, Held depth member.2) : Held (depth + 1) (object members)

theorem Held.exact {depth : Nat} {value : Json} (h : value.Held depth) : value.Exact insertMember depth := by
  induction h with
  | null depth => cases depth <;> trivial
  | flag depth b => cases depth <;> trivial
  | integer depth hlow hhigh => cases depth <;> exact ⟨hlow, hhigh⟩
  | text depth s => cases depth <;> trivial
  | array hvalues ih => exact ih
  | object hsorted hmembers ih => exact exact_object hsorted ih

theorem Held.mono {depth depth' : Nat} {value : Json} (h : value.Held depth) (hle : depth ≤ depth') :
    value.Held depth' := by
  induction h generalizing depth' with
  | null depth => exact .null depth'
  | flag depth b => exact .flag depth' b
  | integer depth hlow hhigh => exact .integer depth' hlow hhigh
  | text depth s => exact .text depth' s
  | array hvalues ih =>
    obtain _ | depth' := depth'
    · exact absurd hle (Nat.not_succ_le_zero _)
    · exact .array fun value hvalue => ih value hvalue (Nat.le_of_succ_le_succ hle)
  | object hsorted hmembers ih =>
    obtain _ | depth' := depth'
    · exact absurd hle (Nat.not_succ_le_zero _)
    · exact .object hsorted fun member hmember => ih member hmember (Nat.le_of_succ_le_succ hle)

/-! ## Parts of records -/

theorem plain_eq_of_pack {α : Type} [Form α] {a b : α} (h : (Form.shape α).plain (Form.pack a) = Form.pack b) :
    plain a = b := by
  rw [plain, h, Form.unpack_pack]

theorem regular_optionalText (depth : Nat) (s : Option String) : (Shape.optional (.scalar .text)).Regular depth s :=
  Shape.regular_optional fun s _ => ⟨nofun, opens_stringChars s⟩

@[simp] theorem plain_optionalText (s : Option String) : (Shape.optional (.scalar .text)).plain s = s :=
  Shape.plain_optional (.scalar .text) (fun _ => rfl) s

theorem regular_optionalChoice {names : List String} (hnames : names.Nodup) (depth : Nat)
    (chosen : Option (Fin names.length)) : (Shape.optional (.choice names)).Regular depth chosen :=
  Shape.regular_optional fun _ _ => ⟨hnames, opens_stringChars _⟩

@[simp] theorem plain_optionalChoice {names : List String} (chosen : Option (Fin names.length)) :
    (Shape.optional (.choice names)).plain chosen = chosen :=
  Shape.plain_optional (.choice names) (fun _ => rfl) chosen

@[simp] theorem plain_optionalAny (value : Option Json) : (Shape.optional .any).plain value = value :=
  Shape.plain_optional .any (fun _ => rfl) value

end WalletTopUp.Json

/-! ## The records -/

namespace WalletTopUp.Transaction
open Json (Exact Opens insertMember)

/-- A transaction can be read back when its metadata can: it is not `null`, which would stand for no metadata. -/
theorem regular {t : Transaction}
    (h : ∀ metadata ∈ t.metadata, metadata ≠ .null ∧ metadata.Exact insertMember (Json.maxDepth - 1)) :
    (Json.Form.shape Transaction).Regular Json.maxDepth (Json.Form.pack t) := by
  have htype : (Json.Shape.choice TransactionType.names).Regular 126 t.type.index :=
    show TransactionType.names.Nodup by decide
  have hstatus : (Json.Shape.choice TransactionStatus.names).Regular 126 t.status.index :=
    show TransactionStatus.names.Nodup by decide
  have hmethod : (Json.Shape.optional (.choice PaymentMethod.names)).Regular 126
      (t.paymentMethod.map PaymentMethod.index) :=
    Json.regular_optionalChoice (by decide) 126 _
  have hmetadata : (Json.Shape.optional .any).Regular 126 t.metadata :=
    Json.Shape.regular_optional fun metadata hmem =>
      ⟨(h metadata hmem).2, (h metadata hmem).2.opens.resolve_left (h metadata hmem).1⟩
  change fields.Regular 126 t.toFields
  simp [toFields, htype, hstatus, hmethod, hmetadata,
    Json.regular_optionalText]

/-- Only the amounts may change, and they only lose the sign of a zero. -/
theorem plain_eq (t : Transaction) :
    Json.plain t = { t with
      amount := t.amount.plain, balanceBefore := t.balanceBefore.plain, balanceAfter := t.balanceAfter.plain } := by
  have htype : (Json.Shape.choice TransactionType.names).plain t.type.index = t.type.index := rfl
  have hstatus : (Json.Shape.choice TransactionStatus.names).plain t.status.index = t.status.index := rfl
  refine Json.plain_eq_of_pack (?_ : fields.plain t.toFields = toFields _)
  simp [toFields, htype, hstatus]

end WalletTopUp.Transaction

namespace WalletTopUp.Account

theorem fields_regular (values : fields.Values) : fields.Regular 126 values := by
  have hstatus : AccountStatus.names.Nodup := by decide
  simp [hstatus]

theorem regular (a : Account) : (Json.Form.shape Account).Regular Json.maxDepth (Json.Form.pack a) :=
  fields_regular a.toFields

theorem plain_eq (a : Account) : Json.plain a = { a with balance := a.balance.plain } :=
  Json.plain_eq_of_pack rfl

end WalletTopUp.Account

namespace WalletTopUp.User

theorem fields_regular (values : fields.Values) : fields.Regular 126 values := by
  simp [Json.regular_optionalText]

theorem regular (u : User) : (Json.Form.shape User).Regular Json.maxDepth (Json.Form.pack u) :=
  fields_regular u.toFields

theorem plain_eq (u : User) : Json.plain u = u := by
  refine Json.plain_eq_of_pack (?_ : fields.plain u.toFields = toFields _)
  simp [toFields]

end WalletTopUp.User

namespace WalletTopUp.AccountView

theorem regular (v : AccountView) : (Json.Form.shape AccountView).Regular Json.maxDepth (Json.Form.pack v) :=
  Account.fields_regular v.toFields

theorem plain_eq (v : AccountView) : Json.plain v = { v with balance := v.balance.plain } :=
  Json.plain_eq_of_pack rfl

end WalletTopUp.AccountView

namespace WalletTopUp.BalanceView

theorem regular (v : BalanceView) : (Json.Form.shape BalanceView).Regular Json.maxDepth (Json.Form.pack v) := by
  change fields.Regular 126 (v.balance, v.currency, ())
  simp

theorem plain_eq (v : BalanceView) : Json.plain v = { v with balance := v.balance.plain } := rfl

end WalletTopUp.BalanceView

namespace WalletTopUp.Receipt

theorem fields_regular (values : fields.Values) : fields.Regular 126 values := by
  have htype : TransactionType.names.Nodup := by decide
  have hstatus : TransactionStatus.names.Nodup := by decide
  have hmethod : PaymentMethod.names.Nodup := by decide
  simp [htype, hstatus, Json.regular_optionalChoice hmethod, Json.regular_optionalText]

theorem regular (r : Receipt) : (Json.Form.shape Receipt).Regular Json.maxDepth (Json.Form.pack r) :=
  fields_regular r.toFields

theorem plain_eq (r : Receipt) :
    Json.plain r = { r with
      amount := r.amount.plain, balanceBefore := r.balanceBefore.plain, balanceAfter := r.balanceAfter.plain } := by
  have htype : (Json.Shape.choice TransactionType.names).plain r.type.index = r.type.index := rfl
  have hstatus : (Json.Shape.choice TransactionStatus.names).plain r.status.index = r.status.index := rfl
  refine Json.plain_eq_of_pack (?_ : fields.plain r.toFields = toFields _)
  simp [toFields, htype, hstatus]

end WalletTopUp.Receipt

namespace WalletTopUp.WalletView

theorem fields_regular (values : fields.Values) : fields.Regular 126 values := by
  have hprovider : PaymentMethod.names.Nodup := by decide
  simp [hprovider]

theorem regular (w : WalletView) : (Json.Form.shape WalletView).Regular Json.maxDepth (Json.Form.pack w) :=
  fields_regular w.toFields

theorem plain_eq (w : WalletView) : Json.plain w = { w with balance := w.balance.plain } :=
  Json.plain_eq_of_pack rfl

end WalletTopUp.WalletView
