import Mathlib.Data.List.Induction
import WalletTopUp.Proofs.TopUp.Effects
import WalletTopUp.Proofs.TopUp.Report
import WalletTopUp.Proofs.Underway

/-!
# What is checked before an order

Seven things are checked before an order is placed (`Check`). What violates each of them is said by itself (`Violated`),
in terms of the request, the users, the accounts and the registered providers; several can be violated at once. The
first one decides how the top-up fails, and when there is none just one order is placed (`topUp_checked`).
-/

namespace WalletTopUp

/-! ## The last provider of a method -/

namespace Registry
variable {registry : Registry} {method : PaymentMethod} {place : Nat}

theorem last?_concat (registry : Registry) (method other : PaymentMethod) :
    Registry.last? (registry ++ [other]) method =
      if other = method then some registry.length else Registry.last? registry method := by
  unfold Registry.last?
  rw [List.zipIdx_append, List.filter_append, List.map_append]
  split_ifs with h
  · simp [h]
  · simp [h]

theorem last?_eq_none_iff : registry.last? method = none ↔ method ∉ registry := by
  induction registry using List.reverseRecOn with
  | nil => simp [Registry.last?]
  | append_singleton registry other ih =>
    rw [last?_concat]
    split_ifs with h
    · simp [h]
    · simp [ih, Ne.symm h]

theorem last?_eq_some_iff : registry.last? method = some place ↔
    registry[place]? = some method ∧ ∀ later, place < later → registry[later]? ≠ some method := by
  -- from the end of the registry, since a later provider takes the place of an earlier one
  induction registry using List.reverseRecOn with
  | nil => simp [Registry.last?]
  | append_singleton registry other ih =>
    rw [last?_concat]
    split_ifs with h
    · subst h
      constructor
      · intro hplace
        obtain rfl : registry.length = place := Option.some.inj hplace
        refine ⟨List.getElem?_concat_length, fun later hlater => ?_⟩
        rw [List.getElem?_eq_none (by rw [List.length_append, List.length_singleton]; omega)]
        nofun
      · rintro ⟨hplace, hlast⟩
        have hlt : place < (registry ++ [other]).length := (List.getElem?_eq_some_iff.mp hplace).1
        rw [List.length_append, List.length_singleton] at hlt
        have hle : ¬place < registry.length := fun hbefore => hlast _ hbefore List.getElem?_concat_length
        exact congrArg some (by omega)
    · have hsame : ∀ i : Nat, (registry ++ [other])[i]? = some method ↔ registry[i]? = some method := by
        intro i
        rcases Nat.lt_trichotomy i registry.length with hlt | rfl | hgt
        · rw [List.getElem?_append_left hlt]
        · simp [h]
        · rw [List.getElem?_eq_none (by rw [List.length_append, List.length_singleton]; omega),
            List.getElem?_eq_none (Nat.le_of_lt hgt)]
      simp only [ne_eq, hsame, ih]

theorem choose_eq_ok {name : String} (h : registry.choose name = .ok (method, place)) :
    name = method.name ∧ registry.last? method = some place := by
  unfold Registry.choose at h
  split at h
  · cases h
  · next method' hname =>
    split at h
    · cases h
    · next place' hlast =>
      cases h
      exact ⟨PaymentMethod.ofName?_eq_some_iff.mp hname, hlast⟩

theorem choose_eq_error {name : String} {fault : Fault} (h : registry.choose name = .error fault) :
    (name ≠ "GOPAY" ∧ name ≠ "SHOPEE_PAY" ∧ fault = .badRequest (.of ("invalid payment method: " ++ name))) ∨
      ∃ method : PaymentMethod, name = method.name ∧ method ∉ registry ∧
        fault = .badRequest (.of ("payment method not available: " ++ method.name)) := by
  unfold Registry.choose at h
  split at h
  · next hname =>
    cases h
    have hunknown : ∀ method : PaymentMethod, name ≠ method.name := by
      intro method heq
      rw [PaymentMethod.ofName?_eq_some_iff.mpr heq] at hname
      cases hname
    exact .inl ⟨hunknown .gopay, hunknown .shopeePay, rfl⟩
  · next method hname =>
    split at h
    · next hlast =>
      cases h
      exact .inr ⟨method, PaymentMethod.ofName?_eq_some_iff.mp hname, last?_eq_none_iff.mp hlast, rfl⟩
    · cases h

end Registry

/-! ## Well-formed requests -/

namespace TopUpRequest

/-- The request breaks a rule of its form. -/
inductive Malformed (request : TopUpRequest) : Prop
  | amount (h : request.amount.value ≤ 0)
  | method (h : ∀ c ∈ request.paymentMethod.toList, Text.isBlank c = true)
  | phone (h : ∀ c ∈ request.phoneNumber.toList, Text.isBlank c = true)
  | longPhone (h : 20 < request.phoneNumber.length)
  | description {description : String} (h : request.description = some description) (hlong : 255 < description.length)

theorem validate_eq_none_iff_not_malformed {request : TopUpRequest} :
    request.validate = none ↔ ¬request.Malformed := by
  rw [validate_eq_none_iff_not_breaks]
  constructor
  · rintro h (hamount | hmethod | hphone | hlong | ⟨hdescription, hlong⟩)
    · exact h _ _ (.amount hamount)
    · exact h _ _ (.method fun c hc => Text.isBlank_iff.mp (hmethod c hc))
    · exact h _ _ (.phone fun c hc => Text.isBlank_iff.mp (hphone c hc))
    · exact h _ _ (.longPhone hlong)
    · exact h _ _ (.longDescription hdescription hlong)
  · intro h field v hbreaks
    apply h
    cases hbreaks with
    | amount hamount => exact .amount hamount
    | method hblank => exact .method fun c hc => Text.isBlank_iff.mpr (hblank c hc)
    | phone hblank => exact .phone fun c hc => Text.isBlank_iff.mpr (hblank c hc)
    | longPhone hlong => exact .longPhone hlong
    | longDescription hdescription hlong => exact .description hdescription hlong

end TopUpRequest

namespace TopUp

/-! ## The checks -/

/-- What is checked before an order, in this order. -/
inductive Check where
  | request
  | user
  | account
  | status
  | balance
  | method
  | provider
  deriving DecidableEq, Repr

def Check.rank : Check → Nat
  | request => 0
  | user => 1
  | account => 2
  | status => 3
  | balance => 4
  | method => 5
  | provider => 6

section
variable (users : String → Option User) (accounts : Json.Word → Option Account) (registry : Registry)
  (username : String) (request : TopUpRequest)

/-- The check fails, and the caller is told the fault. Nothing is said of the other checks here. -/
inductive Violated : Check → Fault → Prop
  | request (h : request.Malformed) : Violated .request (.invalid request.report)
  | user (h : users username = none) : Violated .user (.notFound (.of ("user not found: " ++ username)))
  | account {user : User} (huser : users username = some user) (h : accounts user.id = none) :
      Violated .account (.notFound (.of ("account not found for user: " ++ username)))
  | status {user : User} {account : Account} (huser : users username = some user)
      (haccount : accounts user.id = some account) (h : account.status ≠ .active) :
      Violated .status (.forbidden (.of ("account is " ++ account.status.name)))
  | balance {user : User} {account : Account} (huser : users username = some user)
      (haccount : accounts user.id = some account) (h : account.balance.value < request.amount.value) :
      Violated .balance (.badRequest (.of "insufficient balance for top up"))
  | method (hgopay : request.paymentMethod ≠ "GOPAY") (hshopeePay : request.paymentMethod ≠ "SHOPEE_PAY") :
      Violated .method (.badRequest (.of ("invalid payment method: " ++ request.paymentMethod)))
  | provider {method : PaymentMethod} (hmethod : request.paymentMethod = method.name) (h : method ∉ registry) :
      Violated .provider (.badRequest (.of ("payment method not available: " ++ method.name)))

/-- None of the checks before this rank fails. -/
def Clear (rank : Nat) : Prop :=
  ∀ check fault, check.rank < rank → ¬Violated users accounts registry username request check fault

/-- The check fails, and none before it does. -/
def First (check : Check) (fault : Fault) : Prop :=
  Violated users accounts registry username request check fault ∧
    Clear users accounts registry username request check.rank

end

/-- The repositories do not fail: users are looked up in one table, accounts in another one, as long as no order has
been placed. Everything else may be answered in any way. -/
def Answers (users : String → Option User) (accounts : Json.Word → Option Account) (ordered : Bool) :
    Service.Entry → Bool → Prop
  | ⟨.findUser username, answer⟩, ordered' => answer = .ok (users username) ∧ ordered' = ordered
  | ⟨.readAccount userId, answer⟩, ordered' =>
    (ordered = false → answer = .ok (accounts userId)) ∧ ordered' = ordered
  | ⟨.orderTopUp _ _, _⟩, ordered' => ordered' = true
  | _, ordered' => ordered' = ordered

def order? : Service.Entry → Option (Nat × TopUpOrder)
  | ⟨.orderTopUp provider order, _⟩ => some (provider, order)
  | _ => none

def orders (history : Service.History) : List (Nat × TopUpOrder) := history.filterMap order?

section
variable {users : String → Option User} {accounts : Json.Word → Option Account} {registry : Registry}
  {username : String} {request : TopUpRequest} {history : Service.History} {ordered : Bool} {check check' : Check}
  {fault fault' : Fault}

theorem exists_answers (ordered : Bool) (q : Service.Question) :
    ∃ answer ordered', Answers users accounts ordered ⟨q, answer⟩ ordered' := by
  cases q with
  | findUser username => exact ⟨_, _, rfl, rfl⟩
  | readAccount userId => exact ⟨_, _, fun _ => rfl, rfl⟩
  | orderTopUp provider order => exact ⟨.ok none, _, rfl⟩
  | writeBalance account => exact ⟨.ok 0, _, rfl⟩
  | readCache key => exact ⟨.ok none, _, rfl⟩
  | writeCache key value minutes => exact ⟨.ok (), _, rfl⟩
  | walletBalance provider walletId requestId => exact ⟨.error (.transport .gopay ""), _, rfl⟩
  | dispatch username transaction => exact ⟨(), _, rfl⟩
  | now => exact ⟨.epoch, _, rfl⟩
  | fresh => exact ⟨default, _, rfl⟩
  | count metric => exact ⟨(), _, rfl⟩

theorem Violated.fault_eq (h : Violated users accounts registry username request check fault)
    (h' : Violated users accounts registry username request check fault') : fault' = fault := by
  cases h with
  | request h | user h | method h =>
    cases h'
    rfl
  | account huser h =>
    cases h' with
    | account huser' h' => rfl
  | status huser haccount h =>
    cases h' with
    | status huser' haccount' h' =>
      obtain rfl := Option.some.inj (huser.symm.trans huser')
      obtain rfl := Option.some.inj (haccount.symm.trans haccount')
      rfl
  | balance huser haccount h =>
    cases h'
    rfl
  | provider hmethod h =>
    cases h' with
    | provider hmethod' h' =>
      rw [← hmethod, ← hmethod']

theorem Check.eq_of_rank (h : check.rank = check'.rank) : check = check' := by
  cases check <;> cases check' <;> cases h <;> rfl

theorem First.fault_eq (h : First users accounts registry username request check fault)
    (h' : First users accounts registry username request check' fault') : fault' = fault := by
  rcases Nat.lt_trichotomy check.rank check'.rank with hlt | heq | hgt
  · exact absurd h.1 (h'.2 check fault hlt)
  · obtain rfl := Check.eq_of_rank heq
    exact h.1.fault_eq h'.1
  · exact absurd h'.1 (h.2 check' fault' hgt)

theorem clear_zero : Clear users accounts registry username request 0 :=
  fun _ _ hlt => absurd hlt (Nat.not_lt_zero _)

theorem Clear.next (check : Check) (h : Clear users accounts registry username request check.rank)
    (hcheck : ∀ fault, ¬Violated users accounts registry username request check fault) :
    Clear users accounts registry username request (check.rank + 1) := by
  intro other fault hlt
  rcases Nat.lt_succ_iff_lt_or_eq.mp hlt with hlt | heq
  · exact h other fault hlt
  · obtain rfl := Check.eq_of_rank heq
    exact hcheck fault

section
variable {user : User} {account : Account} {method : PaymentMethod}

theorem clear_user (valid : request.validate = none) :
    Clear users accounts registry username request Check.user.rank := by
  refine clear_zero.next Check.request fun fault h => ?_
  cases h with
  | request h => exact TopUpRequest.validate_eq_none_iff_not_malformed.mp valid h

theorem clear_account (valid : request.validate = none) (huser : users username = some user) :
    Clear users accounts registry username request Check.account.rank := by
  refine (clear_user valid).next Check.user fun fault h => ?_
  cases h with
  | user h =>
    rw [huser] at h
    cases h

theorem clear_status (valid : request.validate = none) (huser : users username = some user)
    (haccount : accounts user.id = some account) :
    Clear users accounts registry username request Check.status.rank := by
  refine (clear_account valid huser).next Check.account fun fault h => ?_
  cases h with
  | account huser' h =>
    obtain rfl := Option.some.inj (huser.symm.trans huser')
    rw [haccount] at h
    cases h

theorem clear_balance (valid : request.validate = none) (huser : users username = some user)
    (haccount : accounts user.id = some account) (active : account.isActive = true) :
    Clear users accounts registry username request Check.balance.rank := by
  refine (clear_status valid huser haccount).next Check.status fun fault h => ?_
  cases h with
  | status huser' haccount' h =>
    obtain rfl := Option.some.inj (huser.symm.trans huser')
    obtain rfl := Option.some.inj (haccount.symm.trans haccount')
    exact h (beq_iff_eq.mp active)

theorem clear_method (valid : request.validate = none) (huser : users username = some user)
    (haccount : accounts user.id = some account) (active : account.isActive = true)
    (covered : request.amount ≤ account.balance) :
    Clear users accounts registry username request Check.method.rank := by
  refine (clear_balance valid huser haccount active).next Check.balance fun fault h => ?_
  cases h with
  | balance huser' haccount' h =>
    obtain rfl := Option.some.inj (huser.symm.trans huser')
    obtain rfl := Option.some.inj (haccount.symm.trans haccount')
    exact not_le.mpr h (Decimal.value_le_iff.mpr covered)

theorem clear_provider (valid : request.validate = none) (huser : users username = some user)
    (haccount : accounts user.id = some account) (active : account.isActive = true)
    (covered : request.amount ≤ account.balance) (hmethod : request.paymentMethod = method.name) :
    Clear users accounts registry username request Check.provider.rank := by
  refine (clear_method valid huser haccount active covered).next Check.method fun fault h => ?_
  cases h with
  | method hgopay hshopeePay =>
    cases method with
    | gopay => exact hgopay hmethod
    | shopeePay => exact hshopeePay hmethod

end

/-! ## How a top-up goes -/

theorem answers_findUser_iff {answer : Except Fault (Option User)} :
    Served (Answers users accounts) false (⟨.findUser username, answer⟩ :: history) ordered ↔
      answer = .ok (users username) ∧ Served (Answers users accounts) false history ordered := by
  rw [served_cons_iff]
  simp [Answers, and_assoc]

theorem answers_readAccount_iff {userId : Json.Word} {answer : Except Fault (Option Account)} :
    Served (Answers users accounts) false (⟨.readAccount userId, answer⟩ :: history) ordered ↔
      answer = .ok (accounts userId) ∧ Served (Answers users accounts) false history ordered := by
  rw [served_cons_iff]
  simp [Answers, and_assoc]

theorem tables_of_served {user : User} {account : Option Account}
    (hserved : Served (Answers users accounts) false
      (⟨.findUser username, .ok (some user)⟩ :: ⟨.readAccount user.id, .ok account⟩ :: history) ordered) :
    users username = some user ∧ accounts user.id = account := by
  obtain ⟨huser, hserved⟩ := answers_findUser_iff.mp hserved
  obtain ⟨haccount, -⟩ := answers_readAccount_iff.mp hserved
  exact ⟨(Except.ok.inj huser).symm, (Except.ok.inj haccount).symm⟩

theorem Refused.exists_first (h : Refused registry username request history fault)
    (hserved : Served (Answers users accounts) false history ordered) :
    ∃ check, First users accounts registry username request check fault := by
  cases h with
  | invalid h =>
    obtain rfl := TopUpRequest.eq_report_of_validate h
    have hmalformed : request.Malformed := by
      by_contra hform
      rw [TopUpRequest.validate_eq_none_iff_not_malformed.mpr hform] at h
      cases h
    exact ⟨.request, .request hmalformed, clear_zero⟩
  | userUnread valid => cases (answers_findUser_iff.mp hserved).1
  | noUser valid =>
    have huser := (answers_findUser_iff.mp hserved).1
    exact ⟨.user, .user (Except.ok.inj huser).symm, clear_user valid⟩
  | accountUnread valid user =>
    obtain ⟨-, hserved⟩ := answers_findUser_iff.mp hserved
    cases (answers_readAccount_iff.mp hserved).1
  | noAccount valid user =>
    obtain ⟨huser, haccount⟩ := tables_of_served hserved
    exact ⟨.account, .account huser haccount, clear_account valid huser⟩
  | @inactive valid user account hinactive =>
    obtain ⟨huser, haccount⟩ := tables_of_served hserved
    have hstatus : account.status ≠ .active := beq_eq_false_iff_ne.mp hinactive
    exact ⟨.status, .status huser haccount hstatus, clear_status valid huser haccount⟩
  | @uncovered valid user account active hlt =>
    obtain ⟨huser, haccount⟩ := tables_of_served hserved
    have hvalue : account.balance.value < request.amount.value := by
      rw [← not_le, Decimal.value_le_iff]
      exact Int.not_le.mpr hlt
    exact ⟨.balance, .balance huser haccount hvalue, clear_balance valid huser haccount active⟩
  | @unavailable valid user account active covered fault hchosen =>
    obtain ⟨huser, haccount⟩ := tables_of_served hserved
    rcases Registry.choose_eq_error hchosen with
      ⟨hgopay, hshopeePay, rfl⟩ | ⟨method, hmethod, habsent, rfl⟩
    · exact ⟨.method, .method hgopay hshopeePay, clear_method valid huser haccount active covered⟩
    · exact ⟨.provider, .provider hmethod habsent, clear_provider valid huser haccount active covered hmethod⟩

/-- An order that is admitted violates nothing. -/
theorem Placing.Admitted.not_violated {p : Placing} (hp : p.Admitted registry request)
    (huser : users username = some p.user) (haccount : accounts p.user.id = some p.account) :
    ¬Violated users accounts registry username request check fault := by
  obtain ⟨hmethod, hlast⟩ := Registry.choose_eq_ok hp.chosen
  have hclear : Clear users accounts registry username request (Check.provider.rank + 1) := by
    refine (clear_provider hp.valid huser haccount hp.active hp.covered hmethod).next Check.provider fun fault h => ?_
    cases h with
    | @provider method hmethod' habsent =>
      obtain rfl : p.method = method := by
        have hname := PaymentMethod.ofName?_eq_some_iff.mpr hmethod
        rw [PaymentMethod.ofName?_eq_some_iff.mpr hmethod'] at hname
        exact (Option.some.inj hname).symm
      rw [Registry.last?_eq_none_iff.mpr habsent] at hlast
      cases hlast
  have hrank : check.rank < Check.provider.rank + 1 := by
    cases check <;> decide
  exact hclear check fault hrank

/-- The order that is placed when nothing is violated. -/
structure Ordered (users : String → Option User) (accounts : Json.Word → Option Account) (registry : Registry)
    (username : String) (request : TopUpRequest) (provider : Nat) (order : TopUpOrder) : Prop where
  amount : order.amount = request.amount
  account : ∃ user account, users username = some user ∧ accounts user.id = some account ∧ order.accountId = account.id
  /-- The provider is the last one that is registered for the method. -/
  method : ∃ method : PaymentMethod, request.paymentMethod = method.name ∧
    order.walletId = method.walletMark ++ request.phoneNumber ∧ registry[provider]? = some method ∧
      ∀ later, provider < later → registry[later]? ≠ some method

theorem orders_append (first rest : Service.History) : orders (first ++ rest) = orders first ++ orders rest :=
  List.filterMap_append

variable {r : Except Stop Receipt}

theorem orders_counted : orders (counted request r) = [] := by
  rcases r with (fault | _) | receipt <;> rfl

theorem Refused.orders_eq (h : Refused registry username request history fault) : orders history = [] := by
  rcases h.history_cases with rfl | ⟨answer, rfl⟩ | ⟨user, answer, rfl⟩ <;> rfl

theorem Settled.orders_eq {p : Placing} (h : Settled username request p history r) :
    orders history = [(p.provider, p.order request)] := by
  rcases h with _ | _ | _ | _ | _ | _ <;> rfl

theorem checked_of_yields (hyields : (topUp registry username request).Yields history r)
    (hserved : Served (Answers users accounts) false history ordered) :
    (∃ check fault, First users accounts registry username request check fault ∧ r = .error (.fault fault) ∧
        orders history = []) ∨
      (∀ check fault, ¬Violated users accounts registry username request check fault) ∧
        ∃ provider order, orders history = [(provider, order)] ∧
          Ordered users accounts registry username request provider order := by
  obtain ⟨first, hexecute, rfl⟩ := yields_topUp_iff.mp hyields
  obtain ⟨ordered', hbegin, -⟩ := served_append_iff.mp hserved
  rw [orders_append, orders_counted, List.append_nil]
  rcases yields_execute_iff.mp hexecute with ⟨fault, hrefused, rfl⟩ | ⟨p, rest, hp, rfl, hsettled⟩
  · obtain ⟨check, hfirst⟩ := hrefused.exists_first hbegin
    exact .inl ⟨check, fault, hfirst, rfl, hrefused.orders_eq⟩
  · obtain ⟨huser, haccount⟩ := tables_of_served hbegin
    obtain ⟨hmethod, hlast⟩ := Registry.choose_eq_ok hp.chosen
    refine .inr ⟨fun _ _ => hp.not_violated huser haccount, p.provider, p.order request, ?_, rfl, ?_, ?_⟩
    · rw [orders_append, hsettled.orders_eq]
      rfl
    · exact ⟨p.user, p.account, huser, haccount, rfl⟩
    · exact ⟨p.method, hmethod, rfl, Registry.last?_eq_some_iff.mp hlast⟩

/-- **The first violated check decides.** Whatever the users and the accounts are and whatever providers are registered,
with repositories that do not fail a top-up comes to its end. It fails with a fault and places no order if and only
if this is the fault of the first violated check. When no check is violated just one order is placed: with the last
provider that is registered for the method, for the very amount, from the account of the user and to the wallet that
the method and the phone number name. -/
theorem topUp_checked (users : String → Option User) (accounts : Json.Word → Option Account) (registry : Registry)
    (username : String) (request : TopUpRequest) :
    (∃ history r ordered, (topUp registry username request).Yields history r ∧
      Served (Answers users accounts) false history ordered) ∧
    ∀ history r ordered, (topUp registry username request).Yields history r →
      Served (Answers users accounts) false history ordered →
      (∀ fault, orders history = [] ∧ r = .error (.fault fault) ↔
        ∃ check, First users accounts registry username request check fault) ∧
      ((∀ check fault, ¬Violated users accounts registry username request check fault) →
        ∃ provider order, orders history = [(provider, order)] ∧
          Ordered users accounts registry username request provider order) := by
  refine ⟨Program.exists_served exists_answers _ _, ?_⟩
  intro history r ordered hyields hserved
  rcases checked_of_yields hyields hserved with
    ⟨check, fault, hfirst, rfl, hnone⟩ | ⟨hclear, provider, order, horders, hordered⟩
  · refine ⟨fun fault' => ⟨?_, ?_⟩, fun hclear => absurd hfirst.1 (hclear check fault)⟩
    · rintro ⟨-, heq⟩
      obtain rfl : fault = fault' := by
        cases heq
        rfl
      exact ⟨check, hfirst⟩
    · rintro ⟨check', hfirst'⟩
      rw [hfirst.fault_eq hfirst']
      exact ⟨hnone, rfl⟩
  · refine ⟨fun fault => ⟨?_, ?_⟩, fun _ => ⟨provider, order, horders, hordered⟩⟩
    · rintro ⟨hnone, -⟩
      rw [horders] at hnone
      cases hnone
    · rintro ⟨check, hfirst⟩
      exact absurd hfirst.1 (hclear check fault)

end

/-! Forty do not pay for sixty, and whether the method exists is then not looked at. Of two providers for one method
the later one is called. -/

namespace Sample

/-- A request for a provider that does not exist. -/
def unknownMethod : TopUpRequest := ⟨sixty, "OVO", "0812", none⟩

theorem first_balance :
    First (fun _ => some user) (fun _ => some (account forty)) registry user.username unknownMethod .balance
      (.badRequest (.of "insufficient balance for top up")) := by
  have hshort : (account forty).balance.value < unknownMethod.amount.value := by
    norm_num [Decimal.value, Decimal.coefficient, account, forty, unknownMethod, sixty, whole]
  exact ⟨.balance rfl rfl hshort, clear_balance rfl rfl rfl rfl⟩

/-- Two providers for one method, with another one between them. -/
def doubled : Registry := [.gopay, .shopeePay, .gopay]

theorem not_violated_doubled (check : Check) (fault : Fault) :
    ¬Violated (fun _ => some user) (fun _ => some (account forty)) doubled user.username (request forty) check
      fault := by
  have hadmitted : Placing.Admitted doubled (request forty) ⟨user, account forty, .gopay, 2, .epoch, default⟩ :=
    ⟨(admitted rfl (Int.le_refl _)).valid, rfl, Int.le_refl _, rfl⟩
  exact hadmitted.not_violated rfl rfl

end Sample

theorem topUp_checked_forty :
    (∃ history, (topUp Sample.registry Sample.user.username Sample.unknownMethod).Yields history
        (.error (.fault (.badRequest (.of "insufficient balance for top up")))) ∧ orders history = []) ∧
    ∃ history r order, (topUp Sample.doubled Sample.user.username (Sample.request Sample.forty)).Yields history r ∧
      orders history = [(2, order)] ∧ order.amount = Sample.forty := by
  constructor
  · obtain ⟨⟨history, r, ordered, hyields, hserved⟩, hall⟩ := topUp_checked (fun _ => some Sample.user)
      (fun _ => some (Sample.account Sample.forty)) Sample.registry Sample.user.username Sample.unknownMethod
    obtain ⟨horders, rfl⟩ := ((hall history r ordered hyields hserved).1 _).mpr ⟨.balance, Sample.first_balance⟩
    exact ⟨history, hyields, horders⟩
  · obtain ⟨⟨history, r, ordered, hyields, hserved⟩, hall⟩ := topUp_checked (fun _ => some Sample.user)
      (fun _ => some (Sample.account Sample.forty)) Sample.doubled Sample.user.username (Sample.request Sample.forty)
    obtain ⟨provider, order, horders, hamount, -, method, hmethod, -, hplace, hlast⟩ :=
      (hall history r ordered hyields hserved).2 Sample.not_violated_doubled
    obtain rfl : method = .gopay := by
      rw [← PaymentMethod.ofName?_eq_some_iff] at hmethod
      exact (Option.some.inj hmethod).symm
    obtain rfl : provider = 2 := by
      rcases provider with _ | _ | _ | place
      · exact absurd rfl (hlast 2 (by decide))
      · cases hplace
      · rfl
      · cases hplace
    exact ⟨history, r, order, hyields, horders, hamount⟩

end TopUp

end WalletTopUp
