import WalletTopUp.Proofs.SideEffect.Course
import WalletTopUp.Proofs.TopUp.Effects

/-!
# What follows a debit

A transaction is handed to the side effects only when it has been recorded, and for the record the account is read
once more. So a debit that has been written is followed up exactly when this reading finds the account
(`followedUp_iff`). Otherwise the top-up ends with the debit: entries of the cache stay as they are and no event is
sent (`unfollowed`).
-/

namespace WalletTopUp.TopUp

/-- The transaction is handed on, and whatever cache and stream answer to its side effects, the entries that it makes
stale are asked to go and its event is sent. -/
def FollowedUp (username : String) (history : Service.History) : Prop :=
  ∃ t : Transaction, (⟨.dispatch username t, ()⟩ : Service.Entry) ∈ history ∧
    ∀ p effects report, (SideEffect.afterTopUp p username t).Yields effects report →
      SideEffect.Followed p username t effects

section
variable {registry : Registry} {username : String} {request : TopUpRequest} {history : Service.History}
  {r : Except Stop Receipt} {p : Placing}

theorem followedUp_iff_mem :
    FollowedUp username history ↔ ∃ t : Transaction, (⟨.dispatch username t, ()⟩ : Service.Entry) ∈ history := by
  constructor
  · rintro ⟨t, hmem, -⟩
    exact ⟨t, hmem⟩
  · rintro ⟨t, hmem⟩
    exact ⟨t, hmem, fun _ _ _ heffects => SideEffect.followed_of_yields heffects⟩

theorem Refused.not_mem_write {fault : Fault} (h : Refused registry username request history fault)
    {account : Account} {written : Except Fault Nat} :
    (⟨.writeBalance account, written⟩ : Service.Entry) ∉ history := by
  rcases h.history_cases with rfl | ⟨answer, rfl⟩ | ⟨user, answer, rfl⟩ <;> simp

theorem Settled.after_write (h : Settled username request p history r) {account : Account} {rows : Nat}
    (hwrite : (⟨.writeBalance account, .ok rows⟩ : Service.Entry) ∈ history) :
    ∃ before reread after,
      history = before ++ ⟨.writeBalance account, .ok rows⟩ :: ⟨.readAccount p.user.id, reread⟩ :: after ∧
        ((∃ t, (⟨.dispatch username t, ()⟩ : Service.Entry) ∈ history) ↔ ∃ current, reread = .ok (some current)) ∧
        ((∃ current, reread = .ok (some current)) ∨ after = [] ∧ ∃ fault, r = .error (.fault fault)) := by
  rcases h with _ | _ | ⟨d⟩ | ⟨d, _, rows', fault⟩ | ⟨d, _, rows'⟩ | ⟨d, _, rows', current, now, id⟩
  · simp at hwrite
  · simp at hwrite
  · simp [Placing.debitHistory] at hwrite
  all_goals
    obtain ⟨rfl, rfl⟩ : account = p.debited d ∧ rows = rows' := by simpa [Placing.debitHistory] using hwrite
    refine ⟨[⟨.orderTopUp p.provider (p.order request), .ok (some d.acceptance)⟩, ⟨.now, d.now⟩], _, _, rfl, ?_, ?_⟩
  · simp [Placing.debitHistory]
  · exact .inr ⟨rfl, _, rfl⟩
  · simp [Placing.debitHistory]
  · exact .inr ⟨rfl, _, rfl⟩
  · simp [Placing.debitHistory]
  · exact .inl ⟨current, rfl⟩

theorem receipt_of_dispatch (hyields : (topUp registry username request).Yields history r) {user : String}
    {t : Transaction} (hmem : (⟨.dispatch user t, ()⟩ : Service.Entry) ∈ history) :
    user = username ∧ r = .ok t.receipt := by
  obtain ⟨first, hfirst, rfl⟩ := yields_topUp_iff.mp hyields
  have hcounted : (⟨.dispatch user t, ()⟩ : Service.Entry) ∉ counted request r := by
    rcases r with (fault | _) | receipt <;> simp [counted]
  replace hmem := (List.mem_append.mp hmem).resolve_right hcounted
  rcases yields_execute_iff.mp hfirst with ⟨fault, hrefused, -⟩ | ⟨p, rest, -, rfl, hsettled⟩
  · rcases hrefused.history_cases with rfl | ⟨answer, rfl⟩ | ⟨user, answer, rfl⟩ <;> simp at hmem
  · rcases hsettled with _ | _ | ⟨d⟩ | ⟨d⟩ | ⟨d⟩ | ⟨d, _, rows, current, now, id⟩ <;>
      simp [Placing.history, Placing.debitHistory] at hmem
    obtain ⟨rfl, rfl⟩ := hmem
    exact ⟨rfl, rfl⟩

/-- **A debit is followed up exactly when the account is found again.** After a writing, whatever number of rows it
has changed, the account is read once more. When it is not found nothing else is done, and the caller is told a
fault. -/
theorem followedUp_iff (hyields : (execute registry username request).run.Yields history r) {account : Account}
    {rows : Nat} (hwrite : (⟨.writeBalance account, .ok rows⟩ : Service.Entry) ∈ history) :
    ∃ before userId reread after,
      history = before ++ ⟨.writeBalance account, .ok rows⟩ :: ⟨.readAccount userId, reread⟩ :: after ∧
        (FollowedUp username history ↔ ∃ current, reread = .ok (some current)) ∧
        ((∃ current, reread = .ok (some current)) ∨ after = [] ∧ ∃ fault, r = .error (.fault fault)) := by
  rcases yields_execute_iff.mp hyields with ⟨fault, hrefused, rfl⟩ | ⟨p, rest, hp, rfl, hsettled⟩
  · exact absurd hwrite hrefused.not_mem_write
  have hrest : (⟨.writeBalance account, .ok rows⟩ : Service.Entry) ∈ rest := by
    simpa [Placing.history] using hwrite
  obtain ⟨before, reread, after, rfl, hdispatch, hend⟩ := hsettled.after_write hrest
  refine ⟨p.history username ++ before, p.user.id, reread, after, (List.append_assoc _ _ _).symm, ?_, hend⟩
  rw [← hdispatch, followedUp_iff_mem]
  simp [Placing.history]

theorem followedUp_iff_sixty :
    ∃ before userId reread after,
      Sample.history Sample.hundred Sample.sixty Sample.forty Sample.forty =
          before ++ ⟨.writeBalance (Sample.account Sample.forty), .ok 1⟩ :: ⟨.readAccount userId, reread⟩ :: after ∧
        (FollowedUp Sample.user.username (Sample.history Sample.hundred Sample.sixty Sample.forty Sample.forty) ↔
          ∃ current, reread = .ok (some current)) ∧
        ((∃ current, reread = .ok (some current)) ∨ after = [] ∧
          ∃ fault, (.ok (Sample.receipt Sample.hundred Sample.sixty Sample.forty Sample.forty) : Except Stop Receipt) =
            .error (.fault fault)) := by
  have hyields := Sample.yields_execute Sample.forty rfl Sample.sixty_le_hundred Sample.hundred_sub?_sixty
  have hwrite : (⟨.writeBalance (Sample.account Sample.forty), .ok 1⟩ : Service.Entry) ∈
      Sample.history Sample.hundred Sample.sixty Sample.forty Sample.forty := by
    simp [Sample.history, Placing.debitHistory, Placing.debited, Sample.placing, Sample.debit, Sample.account]
  exact followedUp_iff hyields hwrite

/-- 60 of 100 have been taken and the account cannot be read again: nothing is handed to the side effects. -/
theorem unfollowed :
    ∃ (history : Service.History) (fault : Fault),
      (execute Sample.registry Sample.user.username (Sample.request Sample.sixty)).run.Yields history
          (.error (.fault fault)) ∧
        (⟨.writeBalance (Sample.account Sample.forty), .ok 1⟩ : Service.Entry) ∈ history ∧
        ¬ FollowedUp Sample.user.username history := by
  have hdebits : (Sample.placing Sample.hundred).Debits (Sample.debit Sample.forty) (Sample.request Sample.sixty) :=
    Sample.hundred_sub?_sixty
  have hsettled : Settled Sample.user.username (Sample.request Sample.sixty) (Sample.placing Sample.hundred) _ _ :=
    .unread (Sample.debit Sample.forty) hdebits 1 (.database (.of "down"))
  refine ⟨_, _, yields_execute_iff.mpr (.inr ⟨Sample.placing Sample.hundred, _, ?_, rfl, hsettled⟩), ?_, ?_⟩
  · exact Sample.admitted rfl Sample.sixty_le_hundred
  · simp [Placing.debitHistory, Placing.debited, Sample.placing, Sample.debit, Sample.account]
  · rw [followedUp_iff_mem]
    simp [Placing.debitHistory, Placing.history]

end

end WalletTopUp.TopUp
