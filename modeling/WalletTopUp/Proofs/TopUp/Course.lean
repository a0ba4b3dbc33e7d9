import Mathlib.Tactic.SplitIfs
import WalletTopUp.Proofs.History
import WalletTopUp.Proofs.Money.Difference
import WalletTopUp.TopUp.Flow

/-!
# The course of a top-up

Every history of `TopUp.execute` is one of a few. Either the top-up is refused before an order is placed
(`Refused`), or all checks are passed (`Placing.Admitted`) and the order is placed; then the provider decides,
and after an acceptance the ledger does (`Settled`). `yields_execute_iff` says so with all questions, answers and
results, so that no later proof opens the flow again.

The difference that is written back always exists: an admitted amount is positive and covered by the balance.
So no history ends in `Stop.overflow`.
-/

namespace WalletTopUp

namespace Service
variable {ε α : Type}

theorem yields_step_bind_iff {q : Question} {f : Answer q → Attempt Service ε α}
    {history : Service.History} {r : Except ε α} :
    (step q >>= f).run.Yields history r ↔
      ∃ answer rest, history = ⟨q, answer⟩ :: rest ∧ (f answer).run.Yields rest r :=
  Attempt.yields_perform_bind_iff

end Service

/-! ## Valid requests -/

namespace TopUpRequest

theorem validate_eq_none_iff {r : TopUpRequest} : r.validate = none ↔ ∀ f, r.violations f = [] := by
  have hall : ∀ f : Field, f ∈ checkedFields := by rintro (_ | _ | _ | _) <;> simp [checkedFields]
  have hreport : r.validate = none ↔ r.report.findings = [] := by
    unfold validate
    split_ifs with h <;> simpa using h
  rw [hreport]
  simp [report, List.filter_eq_nil_iff, hall]

theorem units_pos_of_validate {r : TopUpRequest} (h : r.validate = none) : 0 < r.amount.units := by
  have hamount := validate_eq_none_iff.mp h .amount
  have hpositive : 0 < r.amount.coefficient := by
    by_contra hlt
    simp [violations, brokenRule, Decimal.isPositive, hlt] at hamount
  rw [Decimal.units_eq]
  positivity

theorem value_pos_of_validate {r : TopUpRequest} (h : r.validate = none) : 0 < r.amount.value := by
  have hunits := units_pos_of_validate h
  rw [Decimal.value_eq]
  positivity

end TopUpRequest

namespace TopUp
variable {α : Type}

/-! ## The parts of the way -/

@[simp] theorem yields_fail_iff {fault : Fault} {history : Service.History} {r : Except Stop α} :
    (fail fault : Flow α).run.Yields history r ↔ history = [] ∧ r = .error (.fault fault) :=
  Attempt.yields_throw_iff

theorem requireUser_bind (username : String) (f : User → Flow α) :
    part (Service.requireUser username) >>= f = Service.step (.findUser username) >>= fun
      | .error fault => fail fault
      | .ok none => fail (.notFound (.of ("user not found: " ++ username)))
      | .ok (some user) => f user := by
  refine congrArg (Program.ask (I := Service) (.findUser username)) (funext fun answer => ?_)
  rcases answer with fault | (_ | user) <;> rfl

theorem payingAccount_bind (username : String) (user : User) (amount : Decimal) (f : Account → Flow α) :
    payingAccount username user amount >>= f = Service.step (.readAccount user.id) >>= fun
      | .error fault => fail fault
      | .ok none => fail (.notFound (.of ("account not found for user: " ++ username)))
      | .ok (some account) =>
        if !account.isActive then fail (.forbidden (.of ("account is " ++ account.status.name)))
        else if account.balance < amount then fail (.badRequest (.of "insufficient balance for top up"))
        else f account := by
  refine congrArg (Program.ask (I := Service) (.readAccount user.id)) (funext fun answer => ?_)
  rcases answer with fault | (_ | account)
  · rfl
  · rfl
  · change (do
        if !account.isActive then fail (.forbidden (.of ("account is " ++ account.status.name)))
        if account.balance < amount then fail (.badRequest (.of "insufficient balance for top up"))
        return account : Flow Account) >>= f =
      if !account.isActive then fail (.forbidden (.of ("account is " ++ account.status.name)))
      else if account.balance < amount then fail (.badRequest (.of "insufficient balance for top up"))
      else f account
    split_ifs <;> rfl

theorem place_bind (provider : Nat) (order : TopUpOrder) (f : Acceptance → Flow α) :
    place provider order >>= f = Service.step (.orderTopUp provider order) >>= fun
      | .error fault => fail fault.toFault
      | .ok none => fail (.notFound (.of ("top up failed for walletId: " ++ order.walletId)))
      | .ok (some acceptance) => f acceptance := by
  refine congrArg (Program.ask (I := Service) (.orderTopUp provider order)) (funext fun answer => ?_)
  rcases answer with fault | (_ | acceptance) <;> rfl

theorem debit_bind (account : Account) (amount : Decimal) (f : Unit → Flow α) :
    debit account amount >>= f = Service.step .now >>= fun now =>
      match account.debited? amount now with
      | none => throw .overflow
      | some debited => Service.step (.writeBalance debited) >>= fun
        | .error fault => fail fault
        | .ok _ => f () := by
  refine congrArg (Program.ask (I := Service) .now) (funext fun now => ?_)
  change (match account.debited? amount now with
    | none => throw .overflow
    | some debited => do
      let _ ← part (Service.orFail (← Service.step (.writeBalance debited))) : Flow Unit) >>= f =
    match account.debited? amount now with
    | none => throw .overflow
    | some debited => Service.step (.writeBalance debited) >>= fun
      | .error fault => fail fault
      | .ok _ => f ()
  rcases account.debited? amount now with _ | debited
  · rfl
  · refine congrArg (Program.ask (I := Service) (.writeBalance debited)) (funext fun answer => ?_)
    rcases answer with fault | rows <;> rfl

theorem yields_debit_bind_iff {account : Account} {amount balance : Decimal} {f : Unit → Flow α}
    {history : Service.History} {r : Except Stop α} (h : account.balance.sub? amount = some balance) :
    (debit account amount >>= f).run.Yields history r ↔
      ∃ now written rest,
        history = ⟨.now, now⟩ ::
          ⟨.writeBalance { account with balance, updatedAt := now }, written⟩ :: rest ∧
        ((∃ fault, written = .error fault ∧ rest = [] ∧ r = .error (.fault fault)) ∨
          ∃ rows, written = .ok rows ∧ (f ()).run.Yields rest r) := by
  rw [debit_bind, Service.yields_step_bind_iff]
  constructor
  · rintro ⟨now, rest, rfl, hwrite⟩
    rw [Account.debited?, h, Option.map_some, Service.yields_step_bind_iff] at hwrite
    obtain ⟨fault | rows, rest, rfl, hrest⟩ := hwrite
    · obtain ⟨rfl, rfl⟩ := yields_fail_iff.mp hrest
      exact ⟨now, .error fault, [], rfl, .inl ⟨fault, rfl, rfl, rfl⟩⟩
    · exact ⟨now, .ok rows, rest, rfl, .inr ⟨rows, rfl, hrest⟩⟩
  · rintro ⟨now, written, rest, rfl, hwritten⟩
    refine ⟨now, _, rfl, ?_⟩
    dsimp only
    rw [Account.debited?, h, Option.map_some, Service.yields_step_bind_iff]
    refine ⟨written, rest, rfl, ?_⟩
    rcases hwritten with ⟨fault, rfl, rfl, rfl⟩ | ⟨rows, rfl, hrest⟩
    · exact yields_fail_iff.mpr ⟨rfl, rfl⟩
    · exact hrest

theorem reread_bind (user : User) (account : Account) (f : Account → Flow α) :
    reread user account >>= f = Service.step (.readAccount user.id) >>= fun
      | .error fault => fail fault
      | .ok none => fail (.internal (.of ("account " ++ account.id ++ " disappeared after debit")))
      | .ok (some current) => f current := by
  refine congrArg (Program.ask (I := Service) (.readAccount user.id)) (funext fun answer => ?_)
  rcases answer with fault | (_ | current) <;> rfl

/-! ## Before the order -/

section
variable (registry : Registry) (username : String) (request : TopUpRequest)

/-- The histories in which a top-up is refused before an order is placed, each with the fault that is told. -/
inductive Refused : Service.History → Fault → Prop
  | invalid {report : TopUpRequest.Report} (h : request.validate = some report) :
      Refused [] (.invalid report)
  | userUnread (valid : request.validate = none) (fault : Fault) :
      Refused [⟨.findUser username, .error fault⟩] fault
  | noUser (valid : request.validate = none) :
      Refused [⟨.findUser username, .ok none⟩] (.notFound (.of ("user not found: " ++ username)))
  | accountUnread (valid : request.validate = none) (user : User) (fault : Fault) :
      Refused [⟨.findUser username, .ok (some user)⟩, ⟨.readAccount user.id, .error fault⟩] fault
  | noAccount (valid : request.validate = none) (user : User) :
      Refused [⟨.findUser username, .ok (some user)⟩, ⟨.readAccount user.id, .ok none⟩]
        (.notFound (.of ("account not found for user: " ++ username)))
  | inactive (valid : request.validate = none) (user : User) {account : Account}
      (h : account.isActive = false) :
      Refused [⟨.findUser username, .ok (some user)⟩, ⟨.readAccount user.id, .ok (some account)⟩]
        (.forbidden (.of ("account is " ++ account.status.name)))
  | uncovered (valid : request.validate = none) (user : User) {account : Account}
      (active : account.isActive = true) (h : account.balance < request.amount) :
      Refused [⟨.findUser username, .ok (some user)⟩, ⟨.readAccount user.id, .ok (some account)⟩]
        (.badRequest (.of "insufficient balance for top up"))
  | unavailable (valid : request.validate = none) (user : User) {account : Account}
      (active : account.isActive = true) (covered : request.amount ≤ account.balance) {fault : Fault}
      (h : registry.choose request.paymentMethod = .error fault) :
      Refused [⟨.findUser username, .ok (some user)⟩, ⟨.readAccount user.id, .ok (some account)⟩] fault

/-- What a top-up knows when it places its order. -/
structure Placing where
  user : User
  account : Account
  method : PaymentMethod
  provider : Nat
  now : Instant
  id : Uuid

/-- All checks that come before the order are passed. -/
structure Placing.Admitted (p : Placing) : Prop where
  valid : request.validate = none
  active : p.account.isActive = true
  covered : request.amount ≤ p.account.balance
  chosen : registry.choose request.paymentMethod = .ok (p.method, p.provider)

namespace Placing

def history (p : Placing) : Service.History :=
  [⟨.findUser username, .ok (some p.user)⟩, ⟨.readAccount p.user.id, .ok (some p.account)⟩,
    ⟨.now, p.now⟩, ⟨.fresh, p.id⟩]

def order (p : Placing) : TopUpOrder where
  walletId := p.method.walletId request.phoneNumber
  amount := request.amount
  referenceId := p.method.referenceId p.now (nonce p.id)
  accountId := p.account.id

/-- The way from the order on. -/
def settle (p : Placing) : Flow Receipt := do
  let acceptance ← place p.provider (p.order request)
  debit p.account request.amount
  let current ← reread p.user p.account
  let now ← Service.step .now
  let id ← Service.step .fresh
  let transaction :=
    transaction request p.method p.user p.account current (p.order request) acceptance id now
  Service.step (.dispatch username transaction)
  return transaction.receipt

end Placing

end

section
variable {registry : Registry} {username : String} {request : TopUpRequest} {history : Service.History}
  {r : Except Stop Receipt}

theorem execute_of_valid (h : request.validate = none) :
    execute registry username request =
      part (Service.requireUser username) >>= fun user =>
      payingAccount username user request.amount >>= fun account =>
      part (Service.orFail (registry.choose request.paymentMethod)) >>= fun (method, provider) =>
      Service.step .now >>= fun now =>
      Service.step .fresh >>= fun id =>
      Placing.settle username request ⟨user, account, method, provider, now, id⟩ := by
  unfold execute
  rw [h]
  rfl

theorem refused_or_placed_of_yields (h : (execute registry username request).run.Yields history r) :
    (∃ fault, Refused registry username request history fault ∧ r = .error (.fault fault)) ∨
      ∃ (p : Placing) (rest : Service.History), p.Admitted registry request ∧
        history = p.history username ++ rest ∧ (p.settle username request).run.Yields rest r := by
  rcases hvalid : request.validate with _ | report
  · rw [execute_of_valid hvalid, requireUser_bind, Service.yields_step_bind_iff] at h
    obtain ⟨fault | (_ | user), rest, rfl, h⟩ := h
    · obtain ⟨rfl, rfl⟩ := yields_fail_iff.mp h
      exact .inl ⟨_, .userUnread hvalid _, rfl⟩
    · obtain ⟨rfl, rfl⟩ := yields_fail_iff.mp h
      exact .inl ⟨_, .noUser hvalid, rfl⟩
    dsimp only at h
    rw [payingAccount_bind, Service.yields_step_bind_iff] at h
    obtain ⟨fault | (_ | account), rest, rfl, h⟩ := h
    · obtain ⟨rfl, rfl⟩ := yields_fail_iff.mp h
      exact .inl ⟨_, .accountUnread hvalid _ _, rfl⟩
    · obtain ⟨rfl, rfl⟩ := yields_fail_iff.mp h
      exact .inl ⟨_, .noAccount hvalid _, rfl⟩
    dsimp only at h
    split_ifs at h with hactive hcovered
    · obtain ⟨rfl, rfl⟩ := yields_fail_iff.mp h
      exact .inl ⟨_, .inactive hvalid _ (by simpa using hactive), rfl⟩
    · obtain ⟨rfl, rfl⟩ := yields_fail_iff.mp h
      exact .inl ⟨_, .uncovered hvalid _ (by simpa using hactive) hcovered, rfl⟩
    rcases hchosen : registry.choose request.paymentMethod with fault | ⟨method, provider⟩
    · rw [hchosen] at h
      obtain ⟨rfl, rfl⟩ := yields_fail_iff.mp h
      exact .inl ⟨_, .unavailable hvalid _ (by simpa using hactive) (Decimal.not_lt.mp hcovered) hchosen, rfl⟩
    · rw [hchosen] at h
      change (Service.step .now >>= fun now => _).run.Yields _ _ at h
      rw [Service.yields_step_bind_iff] at h
      obtain ⟨now, rest, rfl, h⟩ := h
      rw [Service.yields_step_bind_iff] at h
      obtain ⟨id, rest, rfl, h⟩ := h
      exact .inr ⟨⟨user, account, method, provider, now, id⟩, rest,
        ⟨hvalid, by simpa using hactive, Decimal.not_lt.mp hcovered, hchosen⟩, rfl, h⟩
  · unfold execute at h
    rw [hvalid] at h
    obtain ⟨rfl, rfl⟩ := yields_fail_iff.mp h
    exact .inl ⟨_, .invalid hvalid, rfl⟩

theorem Refused.yields {fault : Fault} (h : Refused registry username request history fault) :
    (execute registry username request).run.Yields history (.error (.fault fault)) := by
  rcases h with hreport | ⟨valid, fault⟩ | valid | ⟨valid, user, fault⟩ | ⟨valid, user⟩ |
    ⟨valid, user, hactive⟩ | ⟨valid, user, active, hlt⟩ | ⟨valid, user, active, covered, hchosen⟩
  · unfold execute
    rw [hreport]
    exact yields_fail_iff.mpr ⟨rfl, rfl⟩
  · rw [execute_of_valid valid, requireUser_bind]
    exact Service.yields_step_bind_iff.mpr ⟨_, _, rfl, yields_fail_iff.mpr ⟨rfl, rfl⟩⟩
  · rw [execute_of_valid valid, requireUser_bind]
    exact Service.yields_step_bind_iff.mpr ⟨_, _, rfl, yields_fail_iff.mpr ⟨rfl, rfl⟩⟩
  all_goals
    rw [execute_of_valid valid, requireUser_bind]
    refine Service.yields_step_bind_iff.mpr ⟨.ok (some user), _, rfl, ?_⟩
    dsimp only
    rw [payingAccount_bind]
    refine Service.yields_step_bind_iff.mpr ⟨_, _, rfl, ?_⟩
    dsimp only
  · exact yields_fail_iff.mpr ⟨rfl, rfl⟩
  · exact yields_fail_iff.mpr ⟨rfl, rfl⟩
  · rw [if_pos (by simpa using hactive)]
    exact yields_fail_iff.mpr ⟨rfl, rfl⟩
  · rw [if_neg (by simpa using active), if_pos hlt]
    exact yields_fail_iff.mpr ⟨rfl, rfl⟩
  · rw [if_neg (by simpa using active), if_neg (Decimal.not_lt.mpr covered), hchosen]
    exact yields_fail_iff.mpr ⟨rfl, rfl⟩

theorem Placing.Admitted.yields {p : Placing} (hp : p.Admitted registry request)
    (h : (p.settle username request).run.Yields history r) :
    (execute registry username request).run.Yields (p.history username ++ history) r := by
  obtain ⟨hvalid, hactive, hcovered, hchosen⟩ := hp
  rw [execute_of_valid hvalid, requireUser_bind]
  refine Service.yields_step_bind_iff.mpr ⟨.ok (some p.user), _, rfl, ?_⟩
  dsimp only
  rw [payingAccount_bind]
  refine Service.yields_step_bind_iff.mpr ⟨.ok (some p.account), _, rfl, ?_⟩
  dsimp only
  rw [if_neg (by simpa using hactive), if_neg (Decimal.not_lt.mpr hcovered), hchosen]
  refine Service.yields_step_bind_iff.mpr ⟨p.now, _, rfl, ?_⟩
  exact Service.yields_step_bind_iff.mpr ⟨p.id, _, rfl, h⟩

end

/-! ## From the order on -/

/-- What a top-up knows of its debit. -/
structure Debit where
  acceptance : Acceptance
  now : Instant
  balance : Decimal

namespace Placing
variable (p : Placing) (d : Debit)

def debited : Account := { p.account with balance := d.balance, updatedAt := d.now }

variable (request : TopUpRequest)

/-- The balance that is written back is the difference of the balance that was read and the amount. -/
def Debits : Prop := p.account.balance.sub? request.amount = some d.balance

/-- The entries from the order to the debit. -/
def debitHistory (written : Except Fault Nat) : Service.History :=
  [⟨.orderTopUp p.provider (p.order request), .ok (some d.acceptance)⟩, ⟨.now, d.now⟩,
    ⟨.writeBalance (p.debited d), written⟩]

/-- The transaction that is recorded when the account is read as `current` after the debit. -/
def record (current : Account) (now : Instant) (id : Uuid) : Transaction :=
  transaction request p.method p.user p.account current (p.order request) d.acceptance id now

end Placing

/-- The histories from the order on, each with what the caller gets. -/
inductive Settled (username : String) (request : TopUpRequest) (p : Placing) :
    Service.History → Except Stop Receipt → Prop
  | unplaced (fault : ProviderFault) :
      Settled username request p [⟨.orderTopUp p.provider (p.order request), .error fault⟩]
        (.error (.fault fault.toFault))
  | declined :
      Settled username request p [⟨.orderTopUp p.provider (p.order request), .ok none⟩]
        (.error (.fault (.notFound (.of ("top up failed for walletId: " ++ (p.order request).walletId)))))
  | unwritten (d : Debit) (h : p.Debits d request) (fault : Fault) :
      Settled username request p (p.debitHistory d request (.error fault)) (.error (.fault fault))
  | unread (d : Debit) (h : p.Debits d request) (rows : Nat) (fault : Fault) :
      Settled username request p
        (p.debitHistory d request (.ok rows) ++ [⟨.readAccount p.user.id, .error fault⟩])
        (.error (.fault fault))
  | vanished (d : Debit) (h : p.Debits d request) (rows : Nat) :
      Settled username request p
        (p.debitHistory d request (.ok rows) ++ [⟨.readAccount p.user.id, .ok none⟩])
        (.error (.fault (.internal (.of ("account " ++ p.account.id ++ " disappeared after debit")))))
  | completed (d : Debit) (h : p.Debits d request) (rows : Nat) (current : Account) (now : Instant)
      (id : Uuid) :
      Settled username request p
        (p.debitHistory d request (.ok rows) ++
          [⟨.readAccount p.user.id, .ok (some current)⟩, ⟨.now, now⟩, ⟨.fresh, id⟩,
            ⟨.dispatch username (p.record d request current now id), ()⟩])
        (.ok (p.record d request current now id).receipt)

section
variable {registry : Registry} {username : String} {request : TopUpRequest} {history : Service.History}
  {r : Except Stop Receipt} {p : Placing}

theorem Placing.Admitted.exists_sub? (h : p.Admitted registry request) :
    ∃ left, p.account.balance.sub? request.amount = some left := by
  obtain ⟨left, hleft, -⟩ := Decimal.exists_sub?_of_le (TopUpRequest.units_pos_of_validate h.valid) h.covered
  exact ⟨left, hleft⟩

/-- What is left lies between nothing and the balance. -/
theorem Placing.Admitted.left_bounds (h : p.Admitted registry request) {left : Decimal}
    (hleft : p.account.balance.sub? request.amount = some left) :
    Decimal.zero ≤ left ∧ left ≤ p.account.balance := by
  obtain ⟨left', hleft', hbounds⟩ :=
    Decimal.exists_sub?_of_le (TopUpRequest.units_pos_of_validate h.valid) h.covered
  obtain rfl : left = left' := Option.some.inj (hleft.symm.trans hleft')
  exact hbounds

theorem settled_of_yields (hp : p.Admitted registry request)
    (h : (p.settle username request).run.Yields history r) : Settled username request p history r := by
  unfold Placing.settle at h
  rw [place_bind, Service.yields_step_bind_iff] at h
  obtain ⟨fault | (_ | acceptance), rest, rfl, h⟩ := h
  · obtain ⟨rfl, rfl⟩ := yields_fail_iff.mp h
    exact .unplaced fault
  · obtain ⟨rfl, rfl⟩ := yields_fail_iff.mp h
    exact .declined
  obtain ⟨balance, hsub⟩ := hp.exists_sub?
  dsimp only at h
  rw [yields_debit_bind_iff hsub] at h
  obtain ⟨now, _, rest, rfl, ⟨fault, rfl, rfl, rfl⟩ | ⟨rows, rfl, h⟩⟩ := h
  · exact .unwritten ⟨acceptance, now, balance⟩ hsub fault
  rw [reread_bind, Service.yields_step_bind_iff] at h
  obtain ⟨fault | (_ | current), rest, rfl, h⟩ := h
  · obtain ⟨rfl, rfl⟩ := yields_fail_iff.mp h
    exact .unread ⟨acceptance, now, balance⟩ hsub rows fault
  · obtain ⟨rfl, rfl⟩ := yields_fail_iff.mp h
    exact .vanished ⟨acceptance, now, balance⟩ hsub rows
  dsimp only at h
  rw [Service.yields_step_bind_iff] at h
  obtain ⟨now', rest, rfl, h⟩ := h
  rw [Service.yields_step_bind_iff] at h
  obtain ⟨id, rest, rfl, h⟩ := h
  rw [Service.yields_step_bind_iff] at h
  obtain ⟨⟨⟩, rest, rfl, h⟩ := h
  obtain ⟨rfl, rfl⟩ := Attempt.yields_pure_iff.mp h
  exact .completed ⟨acceptance, now, balance⟩ hsub rows current now' id

theorem Settled.yields (h : Settled username request p history r) :
    (p.settle username request).run.Yields history r := by
  unfold Placing.settle
  rw [place_bind, Service.yields_step_bind_iff]
  rcases h with fault | _ | ⟨d, hsub, fault⟩ | ⟨d, hsub, rows, fault⟩ | ⟨d, hsub, rows⟩ |
    ⟨d, hsub, rows, current, now, id⟩
  · exact ⟨_, _, rfl, yields_fail_iff.mpr ⟨rfl, rfl⟩⟩
  · exact ⟨_, _, rfl, yields_fail_iff.mpr ⟨rfl, rfl⟩⟩
  all_goals
    refine ⟨.ok (some d.acceptance), _, rfl, ?_⟩
    dsimp only
    refine (yields_debit_bind_iff hsub).mpr ⟨d.now, _, _, rfl, ?_⟩
  · exact .inl ⟨fault, rfl, rfl, rfl⟩
  all_goals
    refine .inr ⟨rows, rfl, ?_⟩
    rw [reread_bind]
    refine Service.yields_step_bind_iff.mpr ⟨_, _, rfl, ?_⟩
  · exact yields_fail_iff.mpr ⟨rfl, rfl⟩
  · exact yields_fail_iff.mpr ⟨rfl, rfl⟩
  · refine Service.yields_step_bind_iff.mpr ⟨now, _, rfl, ?_⟩
    refine Service.yields_step_bind_iff.mpr ⟨id, _, rfl, ?_⟩
    exact Service.yields_step_bind_iff.mpr ⟨(), _, rfl, Attempt.yields_pure_iff.mpr ⟨rfl, rfl⟩⟩

/-- **Every history of a top-up.** It is refused, or it is admitted and settled. -/
theorem yields_execute_iff :
    (execute registry username request).run.Yields history r ↔
      (∃ fault, Refused registry username request history fault ∧ r = .error (.fault fault)) ∨
      ∃ (p : Placing) (rest : Service.History), p.Admitted registry request ∧
        history = p.history username ++ rest ∧ Settled username request p rest r := by
  constructor
  · intro h
    rcases refused_or_placed_of_yields h with hrefused | ⟨p, rest, hp, hhistory, hsettle⟩
    · exact .inl hrefused
    · exact .inr ⟨p, rest, hp, hhistory, settled_of_yields hp hsettle⟩
  · rintro (⟨fault, hrefused, rfl⟩ | ⟨p, rest, hp, rfl, hsettled⟩)
    · exact hrefused.yields
    · exact hp.yields hsettled.yields

/-! ## The count -/

/-- The counting of how a top-up ended, if it ended for the caller. -/
def counted (request : TopUpRequest) (r : Except Stop Receipt) : Service.History :=
  let count (outcome : TopUpOutcome) : Service.History :=
    [⟨.count (.topUps (PaymentMethod.ofName? request.paymentMethod) outcome), ()⟩]
  match r with
  | .ok _ => count .success
  | .error (.fault fault) => count (outcomeOf fault)
  | .error .overflow => []

theorem yields_topUp_iff :
    (topUp registry username request).Yields history r ↔
      ∃ first, (execute registry username request).run.Yields first r ∧ history = first ++ counted request r := by
  have hcount : ∀ (outcome : TopUpOutcome) (result : Except Stop Receipt) (rest : Service.History),
      (Program.ask (I := Service) (.count (.topUps (PaymentMethod.ofName? request.paymentMethod) outcome))
          fun _ => .finish result).Yields rest r ↔
        rest = [⟨.count (.topUps (PaymentMethod.ofName? request.paymentMethod) outcome), ()⟩] ∧ r = result := by
    intro outcome result rest
    simp only [Program.yields_ask_iff, Program.yields_finish_iff]
    constructor
    · rintro ⟨⟨⟩, _, rfl, rfl, rfl⟩
      exact ⟨rfl, rfl⟩
    · rintro ⟨rfl, rfl⟩
      exact ⟨(), [], rfl, rfl, rfl⟩
  unfold topUp
  rw [Program.bind_eq, Program.yields_bind_iff]
  constructor
  · rintro ⟨first, rest, (fault | _) | receipt, rfl, hfirst, hrest⟩
    · obtain ⟨rfl, rfl⟩ := (hcount _ _ _).mp hrest
      exact ⟨first, hfirst, rfl⟩
    · obtain ⟨rfl, rfl⟩ := Program.yields_finish_iff.mp hrest
      exact ⟨first, hfirst, rfl⟩
    · obtain ⟨rfl, rfl⟩ := (hcount _ _ _).mp hrest
      exact ⟨first, hfirst, rfl⟩
  · rintro ⟨first, hfirst, rfl⟩
    refine ⟨first, _, r, rfl, hfirst, ?_⟩
    rcases r with (fault | _) | receipt
    · exact (hcount _ _ _).mpr ⟨rfl, rfl⟩
    · exact Program.yields_finish_iff.mpr ⟨rfl, rfl⟩
    · exact (hcount _ _ _).mpr ⟨rfl, rfl⟩

end

/-! ## A small wallet

One user with one account and one provider. Time stands still here. -/

namespace Sample

def whole (n : Nat) (h : n < Decimal.limit) : Decimal := ⟨false, n, 0, Nat.zero_le _, h⟩

def hundred : Decimal := whole 100 (by decide)

def sixty : Decimal := whole 60 (by decide)

def forty : Decimal := whole 40 (by decide)

theorem sixty_le_hundred : sixty ≤ hundred := by decide

theorem hundred_sub?_sixty : hundred.sub? sixty = some forty := by decide

def user : User where
  id := ⟨1, by decide⟩
  username := "amber"
  phoneNumber := "0812"
  email := none
  fullName := none
  createdAt := .epoch
  updatedAt := .epoch

def account (balance : Decimal) : Account where
  id := "A-1"
  userId := user.id
  balance
  currency := "IDR"
  status := .active
  createdAt := .epoch
  updatedAt := .epoch

def registry : Registry := [.gopay]

def request (amount : Decimal) : TopUpRequest := ⟨amount, "GOPAY", "0812", none⟩

def placing (balance : Decimal) : Placing := ⟨user, account balance, .gopay, 0, .epoch, default⟩

def debit (left : Decimal) : Debit := ⟨⟨"G-1", .success, "SUCCESS", left⟩, .epoch, left⟩

variable (balance amount left current : Decimal)

/-- The entries after the debit, when the account is read with the balance `current`. -/
def ending : Service.History :=
  [⟨.readAccount user.id, .ok (some (account current))⟩, ⟨.now, .epoch⟩, ⟨.fresh, default⟩,
    ⟨.dispatch user.username
      ((placing balance).record (debit left) (request amount) (account current) .epoch default), ()⟩]

def history : Service.History :=
  (placing balance).history user.username ++
    ((placing balance).debitHistory (debit left) (request amount) (.ok 1) ++ ending balance amount left current)

def receipt : Receipt :=
  ((placing balance).record (debit left) (request amount) (account current) .epoch default).receipt

variable {balance amount left}

theorem admitted (hpos : amount.isPositive = true) (hle : amount ≤ balance) :
    (placing balance).Admitted registry (request amount) := by
  refine ⟨TopUpRequest.validate_eq_none_iff.mpr ?_, rfl, hle, rfl⟩
  have hmethod : Text.isAllBlank "GOPAY" = false := by decide
  have hphone : Text.isAllBlank "0812" = false := by decide
  rintro (_ | _ | _ | _)
  · simp [TopUpRequest.violations, TopUpRequest.brokenRule, request, hpos]
  · rfl
  · simp [TopUpRequest.violations, TopUpRequest.brokenRule, request, hmethod]
  · simp [TopUpRequest.violations, TopUpRequest.brokenRule, request, hphone,
      show ¬ TopUpRequest.phoneLimit < "0812".length by decide]

theorem yields_execute (hpos : amount.isPositive = true) (hle : amount ≤ balance)
    (h : balance.sub? amount = some left) :
    (execute registry user.username (request amount)).run.Yields (history balance amount left current)
      (.ok (receipt balance amount left current)) := by
  have hdebits : (placing balance).Debits (debit left) (request amount) := h
  refine yields_execute_iff.mpr (.inr ⟨placing balance, _, admitted hpos hle, rfl, ?_⟩)
  exact .completed (debit left) hdebits 1 (account current) .epoch default

end Sample

end TopUp

end WalletTopUp
