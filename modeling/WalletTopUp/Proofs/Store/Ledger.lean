import Mathlib.Data.List.Nodup
import WalletTopUp.Store.Ledger

/-!
# Writing to a ledger

In a ledger whose accounts all have their own ids, a writing is the same as going over all accounts and changing
the one that it is meant for (`write_eq_map`). So it keeps ids and users, and what is read after it is what was
read before it, changed if it is the account that was written (`account?_write`).
-/

namespace WalletTopUp

namespace Account

/-- The account after `a` was written: another balance and time of change if it has the id of `a`. -/
def after (a b : Account) : Account :=
  if b.id = a.id then { b with balance := a.balance, updatedAt := a.updatedAt } else b

@[simp] theorem after_id (a b : Account) : (a.after b).id = b.id := by
  unfold after
  split_ifs <;> rfl

@[simp] theorem after_userId (a b : Account) : (a.after b).userId = b.userId := by
  unfold after
  split_ifs <;> rfl

theorem after_of_ne {a b : Account} (h : b.id ≠ a.id) : a.after b = b :=
  if_neg h

theorem after_of_eq {a b : Account} (h : b.id = a.id) :
    a.after b = { b with balance := a.balance, updatedAt := a.updatedAt } :=
  if_pos h

end Account

namespace Ledger

/-- The accounts of a ledger all have their own ids and their own users. -/
structure Sound (ledger : Ledger) : Prop where
  ids : (ledger.map (·.id)).Nodup
  users : (ledger.map (·.userId)).Nodup

variable {ledger : Ledger} {a b : Account} {userId : Json.Word}

theorem change_eq_map {id : String} {f : Account → Account} (h : (ledger.map (·.id)).Nodup) :
    ledger.change id f = ledger.map fun b => if b.id = id then f b else b := by
  induction ledger with
  | nil => rfl
  | cons c rest ih =>
    rw [List.map_cons, List.nodup_cons] at h
    obtain ⟨hnot, hrest⟩ := h
    by_cases hc : c.id = id
    · have hkept : ∀ b ∈ rest, (if b.id = id then f b else b) = b := by
        intro b hb
        have hne : b.id ≠ id := by
          rintro rfl
          exact hnot (List.mem_map.mpr ⟨b, hb, hc.symm⟩)
        rw [if_neg hne]
      rw [List.map_cons, if_pos hc, List.map_congr_left hkept, List.map_id', change, if_pos hc]
    · rw [List.map_cons, if_neg hc, change, if_neg hc, ih hrest]

theorem write_eq_map (h : ledger.Sound) (a : Account) : ledger.write a = ledger.map a.after :=
  change_eq_map h.ids

theorem Sound.write (h : ledger.Sound) (a : Account) : (ledger.write a).Sound := by
  have hids : (·.id) ∘ a.after = fun b : Account => b.id := funext fun b => Account.after_id a b
  have husers : (·.userId) ∘ a.after = fun b : Account => b.userId := funext fun b => Account.after_userId a b
  rw [write_eq_map h]
  constructor
  · rw [List.map_map, hids]
    exact h.ids
  · rw [List.map_map, husers]
    exact h.users

theorem account?_write (h : (ledger.map (·.id)).Nodup) (a : Account) (userId : Json.Word) :
    (ledger.write a).account? userId = (ledger.account? userId).map a.after := by
  rw [write, change_eq_map h, account?, List.find?_map]
  congr 2
  funext b
  exact congrArg (fun id => decide (id = userId)) (Account.after_userId a b)

theorem map_id_write (ledger : Ledger) (a : Account) : (ledger.write a).map (·.id) = ledger.map (·.id) := by
  unfold write
  induction ledger with
  | nil => rfl
  | cons c rest ih =>
    unfold change
    split
    · rfl
    · rw [List.map_cons, List.map_cons, ih]

theorem account?_write_of_eq (h : ledger.Sound) (hread : ledger.account? userId = some b) (hid : b.id = a.id) :
    (ledger.write a).account? userId = some { b with balance := a.balance, updatedAt := a.updatedAt } := by
  rw [account?_write h.ids, hread, Option.map_some, Account.after_of_eq hid]

theorem isSome_account?_write (ledger : Ledger) (a : Account) (userId : Json.Word) :
    ((ledger.write a).account? userId).isSome = (ledger.account? userId).isSome := by
  unfold write
  induction ledger with
  | nil => rfl
  | cons c rest ih =>
    unfold change
    split
    · by_cases hc : c.userId = userId
      · simp [account?, hc]
      · simp [account?, hc]
    · by_cases hc : c.userId = userId
      · simp [account?, hc]
      · simpa [account?, hc] using ih

theorem mem_of_account? (h : ledger.account? userId = some b) : b ∈ ledger ∧ b.userId = userId :=
  ⟨List.mem_of_find?_eq_some h, by simpa using List.find?_some h⟩

theorem Sound.eq_of_id (h : ledger.Sound) (ha : a ∈ ledger) (hb : b ∈ ledger) (hid : a.id = b.id) : a = b :=
  List.inj_on_of_nodup_map h.ids ha hb hid

end Ledger

end WalletTopUp
