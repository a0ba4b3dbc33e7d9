import WalletTopUp.Proofs.Provider.Balance
import WalletTopUp.Proofs.Service.OnBehalf
import WalletTopUp.Proofs.TopUp.Checks
import WalletTopUp.Proofs.TopUp.WalletLookup

/-!
# What a wallet lookup comes to

Here the service is put together with the exchanges of its two providers: what it asks a provider becomes what is sent
over the provider's interface (`Deployment`). A wallet lookup then depends on the users, on the replies of one provider
and on the accounts, in this order, and `walletBalance_decided` says how. It changes nothing on the way, and without a
user or with a wallet that is not supported no provider is talked to.
-/

namespace WalletTopUp

/-! ## The service with its providers -/

namespace Deployed

/-- One step of the service, or of the exchange with a provider. -/
inductive Question where
  | service (q : Service.Question)
  | provider (method : PaymentMethod) (q : Exchange.Question)

@[reducible] def Answer : Question → Type
  | .service q => Service.Answer q
  | .provider _ q => Exchange.Answer q

end Deployed

/-- The service when its providers are talked to over their interfaces. -/
abbrev Deployed : Interface := ⟨Deployed.Question, Deployed.Answer⟩

/-- How both providers are talked to. -/
structure Deployment where
  settings : PaymentMethod → ProviderSettings
  retry : PaymentMethod → RetryPolicy

namespace Deployment

def registry : Registry := [.gopay, .shopeePay]

def methodAt (place : Nat) : PaymentMethod := registry.getD place .gopay

def client (d : Deployment) (method : PaymentMethod) : ProviderClient :=
  .ofSettings method (d.settings method) (d.retry method)

/-- The steps of an exchange as steps of the whole. -/
def talk {α : Type} (method : PaymentMethod) (x : Program Exchange α) : Program Deployed α :=
  x.interpret fun q => Program.perform (I := Deployed) (.provider method q)

/-- A provider's answer is what the exchange with it yields. Everything else is asked as it is. -/
def answer (d : Deployment) : (q : Service.Question) → Program Deployed (Service.Answer q)
  | .orderTopUp place order => talk (methodAt place) ((d.client (methodAt place)).topUp order).run
  | .walletBalance place walletId requestId =>
    talk (methodAt place) ((d.client (methodAt place)).balance walletId requestId).run
  | q => Program.perform (I := Deployed) (.service q)

/-- Look up the balance of a wallet over the interface of its provider. -/
def walletBalance (d : Deployment) (username walletType : String) : Program Deployed (Except Fault WalletView) :=
  (TopUp.walletBalance registry username walletType).run.interpret d.answer

/-- The part of a history that is the exchange with a provider. -/
def exchangeWith (method : PaymentMethod) (history : Deployed.History) : Exchange.History :=
  history.filterMap fun
    | ⟨.service _, _⟩ => none
    | ⟨.provider other q, a⟩ => if other = method then some ⟨q, a⟩ else none

def isForProvider : Service.Question → Bool
  | .orderTopUp _ _ | .walletBalance _ _ _ => true
  | _ => false

section
variable {α : Type} {d : Deployment} {method other : PaymentMethod} {history : Deployed.History}
  {asked tail : Service.History}

@[simp] theorem exchangeWith_append (first rest : Deployed.History) :
    exchangeWith method (first ++ rest) = exchangeWith method first ++ exchangeWith method rest :=
  List.filterMap_append

/-! ## One exchange -/

def entry (method : PaymentMethod) (e : Exchange.Entry) : Deployed.Entry := ⟨.provider method e.1, e.2⟩

theorem yields_talk_iff {x : Program Exchange α} {r : α} : (talk method x).Yields history r ↔
    ∃ exchange, x.Yields exchange r ∧ history = exchange.map (entry method) := by
  induction x generalizing history with
  | finish a =>
    change (Program.finish a).Yields history r ↔ _
    simp only [Program.yields_finish_iff]
    constructor
    · rintro ⟨rfl, rfl⟩
      exact ⟨[], ⟨rfl, rfl⟩, rfl⟩
    · rintro ⟨_, ⟨rfl, rfl⟩, rfl⟩
      exact ⟨rfl, rfl⟩
  | ask q next ih =>
    change (Program.ask (I := Deployed) (.provider method q) fun a => talk method (next a)).Yields history r ↔ _
    simp only [Program.yields_ask_iff, ih]
    constructor
    · rintro ⟨a, _, rfl, exchange, h, rfl⟩
      exact ⟨⟨q, a⟩ :: exchange, ⟨a, exchange, rfl, h⟩, rfl⟩
    · rintro ⟨_, ⟨a, exchange, rfl, h⟩, rfl⟩
      exact ⟨a, _, rfl, exchange, h, rfl⟩

theorem exchangeWith_entries (exchange : Exchange.History) :
    exchangeWith other (exchange.map (entry method)) = if method = other then exchange else [] := by
  unfold exchangeWith
  rw [List.filterMap_map]
  split_ifs with h
  · refine (List.filterMap_congr fun e _ => ?_).trans List.filterMap_some
    exact if_pos h
  · refine List.filterMap_eq_nil_iff.mpr fun e _ => ?_
    exact if_neg h

theorem mem_of_mem_exchangeWith {q : Exchange.Question} {a : Exchange.Answer q}
    (h : (⟨q, a⟩ : Exchange.Entry) ∈ exchangeWith method history) :
    (⟨.provider method q, a⟩ : Deployed.Entry) ∈ history := by
  obtain ⟨⟨_ | ⟨other, q'⟩, a'⟩, hmem, hentry⟩ := List.mem_filterMap.mp h
  · cases hentry
  · dsimp only at hentry
    split_ifs at hentry with hmethod
    obtain rfl := hmethod
    obtain ⟨rfl, hanswer⟩ := Sigma.mk.inj (Option.some.inj hentry)
    rwa [← eq_of_heq hanswer]

/-! ## The entries of the whole -/

theorem answer_of_not_forProvider {q : Service.Question} (h : isForProvider q = false) :
    d.answer q = Program.perform (I := Deployed) (.service q) := by
  cases q <;> first | rfl | cases h

theorem exists_talk_of_forProvider {q : Service.Question} (h : isForProvider q = true) :
    ∃ (method : PaymentMethod) (x : Program Exchange (Service.Answer q)), d.answer q = talk method x := by
  cases q with
  | orderTopUp place order => exact ⟨_, _, rfl⟩
  | walletBalance place walletId requestId => exact ⟨_, _, rfl⟩
  | _ => cases h

theorem service_mem_iff (h : Program.Interpreted d.answer asked history) {q : Service.Question} {a : Service.Answer q} :
    (⟨.service q, a⟩ : Deployed.Entry) ∈ history ↔ (⟨q, a⟩ : Service.Entry) ∈ asked ∧ isForProvider q = false := by
  induction h with
  | nil => simp
  | @cons q' a' asked first rest h hrest ih =>
    rw [List.mem_append, ih, List.mem_cons]
    cases hq : isForProvider q' with
    | false =>
      rw [answer_of_not_forProvider hq, Program.yields_perform_iff] at h
      subst h
      constructor
      · rintro (hfirst | ⟨hmem, hplain⟩)
        · cases List.mem_singleton.mp hfirst
          exact ⟨.inl rfl, hq⟩
        · exact ⟨.inr hmem, hplain⟩
      · rintro ⟨hfirst | hmem, hplain⟩
        · cases hfirst
          exact .inl (List.mem_singleton_self _)
        · exact .inr ⟨hmem, hplain⟩
    | true =>
      obtain ⟨method, x, hx⟩ := exists_talk_of_forProvider (d := d) hq
      rw [hx] at h
      obtain ⟨exchange, -, rfl⟩ := yields_talk_iff.mp h
      constructor
      · rintro (hfirst | ⟨hmem, hplain⟩)
        · obtain ⟨e, -, ⟨⟩⟩ := List.mem_map.mp hfirst
        · exact ⟨.inr hmem, hplain⟩
      · rintro ⟨hfirst | hmem, hplain⟩
        · cases hfirst
          rw [hq] at hplain
          cases hplain
        · exact .inr ⟨hmem, hplain⟩

theorem exchangeWith_eq_nil (h : Program.Interpreted d.answer asked history)
    (hasked : ∀ e ∈ asked, isForProvider e.1 = false) : exchangeWith method history = [] := by
  induction h with
  | nil => rfl
  | @cons q a asked first rest h hrest ih =>
    obtain ⟨hq, hrest⟩ := List.forall_mem_cons.mp hasked
    rw [answer_of_not_forProvider hq, Program.yields_perform_iff] at h
    subst h
    rw [exchangeWith_append, ih hrest]
    rfl

/-! ## The registered providers -/

theorem registry_last? (method : PaymentMethod) : registry.last? method = some method.index := by
  cases method <;> rfl

theorem methodAt_index (method : PaymentMethod) : methodAt method.index = method := by
  cases method <;> rfl

theorem choose_eq_ok {name : String} {place : Nat} (h : registry.choose name = .ok (method, place)) :
    name = method.name ∧ methodAt place = method := by
  obtain ⟨hname, hplace⟩ := Registry.choose_eq_ok h
  rw [registry_last?] at hplace
  refine ⟨hname, ?_⟩
  rw [← Option.some.inj hplace, methodAt_index]

/-- Both providers are registered, so a wallet is only not available when its name is no provider's. -/
theorem choose_eq_error {name : String} {fault : Fault} (h : registry.choose name = .error fault) :
    (∀ method : PaymentMethod, name ≠ method.name) ∧
      fault = .badRequest (.of ("invalid payment method: " ++ name)) := by
  obtain ⟨hgopay, hshopeePay, hfault⟩ | ⟨method, -, habsent, -⟩ := Registry.choose_eq_error h
  · refine ⟨fun method => ?_, hfault⟩
    cases method with
    | gopay => exact hgopay
    | shopeePay => exact hshopeePay
  · cases method <;> simp [registry] at habsent

theorem client_method (d : Deployment) (method : PaymentMethod) : (d.client method).method = method := by
  cases method <;> rfl

theorem client_refreshOnForbidden (d : Deployment) (method : PaymentMethod) :
    (d.client method).refreshOnForbidden = decide ((d.client method).method = .gopay) := by
  cases method <;> rfl

end

/-! ## The wallet lookup -/

/-- What a wallet lookup shows when its provider has stated a balance. -/
structure Shows (accounts : Json.Word → Option Account) (username : String) (user : User) (method : PaymentMethod)
    (history : Deployed.History) (r : Except Fault WalletView) (wallet : WalletBalance) : Prop where
  noAccount : accounts user.id = none → r = .error (.notFound (.of ("account not found for user: " ++ username)))
  /-- The time is the provider's, or the clock's when the provider states none. -/
  account : ∀ account, accounts user.id = some account →
    ∃ lastUpdated, r = .ok ⟨method, wallet.balance, "IDR", account.id, lastUpdated⟩ ∧
      (wallet.lastUpdated = some lastUpdated ∨
        wallet.lastUpdated = none ∧ (⟨.service .now, lastUpdated⟩ : Deployed.Entry) ∈ history)

/-- What a wallet lookup comes to when the repositories answer from the tables. -/
structure Outcome (d : Deployment) (users : String → Option User) (accounts : Json.Word → Option Account)
    (username walletType : String) (history : Deployed.History) (r : Except Fault WalletView) : Prop where
  /-- Neither ledger nor cache nor event stream is changed. -/
  unchanged : ∀ q a, (⟨.service q, a⟩ : Deployed.Entry) ∈ history → q.isChange = false
  unknownUser : users username = none →
    r = .error (.notFound (.of ("user not found: " ++ username))) ∧ ∀ method, exchangeWith method history = []
  unsupported : ∀ user, users username = some user → (∀ method : PaymentMethod, walletType ≠ method.name) →
    r = .error (.badRequest (.of ("invalid payment method: " ++ walletType))) ∧
      ∀ method, exchangeWith method history = []
  /-- The provider is asked for the wallet of the user and decides. Only when it states a balance the account is looked
  at. -/
  asked : ∀ user (method : PaymentMethod), users username = some user → walletType = method.name →
    (∀ other, other ≠ method → exchangeWith other history = []) ∧
      (∃ requestId found, ((d.client method).balance (method.walletId user.phoneNumber) requestId).run.Yields
        (exchangeWith method history) found) ∧
      (d.client method).Concludes (exchangeWith method history) r (Shows accounts username user method history r)

section
variable {d : Deployment} {users : String → Option User} {accounts : Json.Word → Option Account}
  {username walletType : String} {history : Deployed.History} {asked tail : Service.History}
  {r : Except Fault WalletView}

theorem Shows.of_account {user : User} {method : PaymentMethod} {wallet : WalletBalance} {account : Account}
    {lastUpdated : Instant} (haccount : accounts user.id = some account)
    (hr : r = .ok ⟨method, wallet.balance, "IDR", account.id, lastUpdated⟩)
    (hdate : wallet.lastUpdated = some lastUpdated ∨
      wallet.lastUpdated = none ∧ (⟨.service .now, lastUpdated⟩ : Deployed.Entry) ∈ history) :
    Shows accounts username user method history r wallet := by
  constructor
  case noAccount =>
    intro hnone
    rw [haccount] at hnone
    cases hnone
  case account =>
    intro account' haccount'
    obtain rfl : account = account' := Option.some.inj (haccount.symm.trans haccount')
    exact ⟨lastUpdated, hr, hdate⟩

theorem outcome_of_unknownUser (huser : users username = none)
    (hunchanged : ∀ q a, (⟨.service q, a⟩ : Deployed.Entry) ∈ history → q.isChange = false)
    (hnothing : ∀ method, exchangeWith method history = []) :
    d.Outcome users accounts username walletType history
      (.error (.notFound (.of ("user not found: " ++ username)))) := by
  have hunknown : ∀ user, users username ≠ some user := by
    intro user huser'
    rw [huser] at huser'
    cases huser'
  constructor
  case unchanged => exact hunchanged
  case unknownUser => exact fun _ => ⟨rfl, hnothing⟩
  case unsupported => exact fun user huser' => absurd huser' (hunknown user)
  case asked => exact fun user method huser' => absurd huser' (hunknown user)

theorem outcome_of_unsupported {user : User} {fault : Fault} (hchosen : registry.choose walletType = .error fault)
    (huser : users username = some user)
    (hunchanged : ∀ q a, (⟨.service q, a⟩ : Deployed.Entry) ∈ history → q.isChange = false)
    (hnothing : ∀ method, exchangeWith method history = []) :
    d.Outcome users accounts username walletType history (.error fault) := by
  obtain ⟨hname, rfl⟩ := choose_eq_error hchosen
  constructor
  case unchanged => exact hunchanged
  case unknownUser =>
    intro hnone
    rw [huser] at hnone
    cases hnone
  case unsupported => exact fun _ _ _ => ⟨rfl, hnothing⟩
  case asked => exact fun _ method _ hmethod => absurd hmethod (hname method)

theorem exists_exchange {w : TopUp.WalletAsking} {found : Except ProviderFault WalletBalance}
    (h : Program.Interpreted d.answer (w.history username found ++ tail) history)
    (htail : ∀ e ∈ tail, isForProvider e.1 = false) :
    ∃ exchange, ((d.client (methodAt w.provider)).balance (w.method.walletId w.user.phoneNumber) w.id.text).run.Yields
        exchange found ∧
      ∀ method, exchangeWith method history = if methodAt w.provider = method then exchange else [] := by
  obtain ⟨finding, _, rfl, hfind, hfound⟩ := Program.interpreted_cons_iff.mp h
  obtain ⟨drawing, _, rfl, hdraw, hdrawn⟩ := Program.interpreted_cons_iff.mp hfound
  obtain ⟨talking, rest, rfl, htalk, hrest⟩ := Program.interpreted_cons_iff.mp hdrawn
  obtain ⟨exchange, hexchange, rfl⟩ := yields_talk_iff.mp htalk
  rw [answer_of_not_forProvider rfl, Program.yields_perform_iff] at hfind hdraw
  subst hfind hdraw
  refine ⟨exchange, hexchange, fun method => ?_⟩
  rw [exchangeWith_append, exchangeWith_append, exchangeWith_append, exchangeWith_entries,
    exchangeWith_eq_nil hrest htail, List.append_nil]
  rfl

/-- A wallet lookup that asks its provider. What is told on the provider's failure and what is shown on its word is left
open. -/
theorem outcome_of_asked {w : TopUp.WalletAsking} {found : Except ProviderFault WalletBalance}
    (chosen : registry.choose walletType = .ok (w.method, w.provider)) (huser : users username = some w.user)
    (h : Program.Interpreted d.answer (w.history username found ++ tail) history)
    (htail : ∀ e ∈ tail, isForProvider e.1 = false)
    (hunchanged : ∀ q a, (⟨.service q, a⟩ : Deployed.Entry) ∈ history → q.isChange = false)
    (hfault : ∀ fault, found = .error fault → r = .error fault.toFault)
    (hshown : ∀ wallet, found = .ok wallet → Shows accounts username w.user w.method history r wallet) :
    d.Outcome users accounts username walletType history r := by
  obtain ⟨hname, hplace⟩ := choose_eq_ok chosen
  obtain ⟨exchange, hyields, hexchange⟩ := exists_exchange h htail
  rw [hplace] at hyields hexchange
  constructor
  case unchanged => exact hunchanged
  case unknownUser =>
    intro hnone
    rw [huser] at hnone
    cases hnone
  case unsupported => exact fun user _ hunsupported => absurd hname (hunsupported w.method)
  case asked =>
    intro user method huser' hmethod
    obtain rfl : w.user = user := Option.some.inj (huser.symm.trans huser')
    obtain rfl : w.method = method := by
      have hnames : PaymentMethod.ofName? w.method.name = PaymentMethod.ofName? method.name :=
        congrArg PaymentMethod.ofName? (hname.symm.trans hmethod)
      simpa using hnames
    have hnothing : ∀ other, other ≠ w.method → exchangeWith other history = [] :=
      fun other hother => (hexchange other).trans (if_neg hother.symm)
    rw [hexchange w.method, if_pos rfl]
    refine ⟨hnothing, ⟨w.id.text, found, hyields⟩, ?_⟩
    refine (ProviderClient.balance_concludes (d.client_refreshOnForbidden w.method) hyields).imp ?_ hshown
    intro fault hr
    cases found with
    | error failure =>
      obtain rfl : failure.toFault = fault := Except.error.inj hr
      exact hfault failure rfl
    | ok wallet => cases hr

theorem unchanged_of_looked (h : TopUp.WalletLooked registry username walletType asked r) :
    ∀ e ∈ asked, e.1.isChange = false := by
  cases h <;> simp [TopUp.WalletAsking.history, Service.Question.isChange]

theorem outcome_of_looked (hlooked : TopUp.WalletLooked registry username walletType asked r)
    (h : Program.Interpreted d.answer asked history)
    (hfind : ∀ a, (⟨.findUser username, a⟩ : Service.Entry) ∈ asked → a = .ok (users username))
    (hread : ∀ userId a, (⟨.readAccount userId, a⟩ : Service.Entry) ∈ asked → a = .ok (accounts userId)) :
    d.Outcome users accounts username walletType history r := by
  have hunchanged : ∀ q a, (⟨.service q, a⟩ : Deployed.Entry) ∈ history → q.isChange = false :=
    fun q a hmem => unchanged_of_looked hlooked ⟨q, a⟩ ((service_mem_iff h).mp hmem).1
  have huser : ∀ found, (⟨.findUser username, .ok found⟩ : Service.Entry) ∈ asked → users username = found :=
    fun found hmem => (Except.ok.inj (hfind _ hmem)).symm
  have haccount : ∀ userId found, (⟨.readAccount userId, .ok found⟩ : Service.Entry) ∈ asked →
      accounts userId = found :=
    fun userId found hmem => (Except.ok.inj (hread userId _ hmem)).symm
  cases hlooked with
  | userFault fault => cases hfind _ List.mem_cons_self
  | noUser =>
    exact outcome_of_unknownUser (huser none List.mem_cons_self) hunchanged
      fun _ => exchangeWith_eq_nil h (by simp [isForProvider])
  | unavailable user hchosen =>
    exact outcome_of_unsupported hchosen (huser (some user) List.mem_cons_self) hunchanged
      fun _ => exchangeWith_eq_nil h (by simp [isForProvider])
  | unanswered w chosen fault =>
    have huser : users username = some w.user := huser (some w.user) List.mem_cons_self
    have h' : Program.Interpreted d.answer (w.history username (.error fault) ++ []) history := by
      rwa [List.append_nil]
    refine outcome_of_asked chosen huser h' (List.forall_mem_nil _) hunchanged ?_ ?_
    · rintro _ ⟨⟩
      rfl
    · rintro _ ⟨⟩
  | accountFault w chosen found fault =>
    cases hread w.user.id (.error fault) (List.mem_append_right _ List.mem_cons_self)
  | noAccount w chosen found =>
    have huser : users username = some w.user := huser (some w.user) List.mem_cons_self
    have haccount : accounts w.user.id = none :=
      haccount w.user.id none (List.mem_append_right _ List.mem_cons_self)
    refine outcome_of_asked chosen huser h (by simp [isForProvider]) hunchanged nofun ?_
    rintro _ ⟨⟩
    refine ⟨fun _ => rfl, fun account haccount' => ?_⟩
    rw [haccount] at haccount'
    cases haccount'
  | @dated w chosen found account at' hdate =>
    have huser : users username = some w.user := huser (some w.user) List.mem_cons_self
    have haccount : accounts w.user.id = some account :=
      haccount w.user.id (some account) (List.mem_append_right _ List.mem_cons_self)
    refine outcome_of_asked chosen huser h (by simp [isForProvider]) hunchanged nofun ?_
    rintro _ ⟨⟩
    exact .of_account haccount rfl (.inl hdate)
  | @undated w chosen found account hdate now =>
    have huser : users username = some w.user := huser (some w.user) List.mem_cons_self
    have haccount : accounts w.user.id = some account :=
      haccount w.user.id (some account) (List.mem_append_right _ List.mem_cons_self)
    have hnow : (⟨.now, now⟩ : Service.Entry) ∈
        w.history username (.ok found) ++ [⟨.readAccount w.user.id, .ok (some account)⟩, ⟨.now, now⟩] :=
      List.mem_append_right _ (List.mem_cons_of_mem _ List.mem_cons_self)
    refine outcome_of_asked chosen huser h (by simp [isForProvider]) hunchanged nofun ?_
    rintro _ ⟨⟩
    exact .of_account haccount rfl (.inr ⟨hdate, (service_mem_iff h).mpr ⟨hnow, rfl⟩⟩)

end

/-- **What a wallet lookup comes to.** The repositories answer from the tables, and everybody else as they like, the
providers included. -/
theorem walletBalance_decided (d : Deployment) (users : String → Option User) (accounts : Json.Word → Option Account)
    (username walletType : String) (respond : Interface.Responder Deployed)
    (hfind : ∀ known name, respond known (.service (.findUser name)) = .ok (users name))
    (hread : ∀ known userId, respond known (.service (.readAccount userId)) = .ok (accounts userId)) :
    ∃ history r, (Answered respond [] history ∧ (d.walletBalance username walletType).Yields history r) ∧
      d.Outcome users accounts username walletType history r ∧
      ∀ history' r', Answered respond [] history' → (d.walletBalance username walletType).Yields history' r' →
        history' = history ∧ r' = r := by
  obtain ⟨history, r, hanswered, hyields⟩ := (d.walletBalance username walletType).exists_answered respond []
  refine ⟨history, r, ⟨hanswered, hyields⟩, ?_, fun history' r' hanswered' hyields' =>
    hyields.unique hanswered hyields' hanswered'⟩
  obtain ⟨asked, hasked, hinterpreted⟩ := Program.interpreted_of_yields hyields
  refine outcome_of_looked (TopUp.yields_walletBalance_iff.mp hasked) hinterpreted ?_ ?_
  · intro a hmem
    obtain ⟨known, ha⟩ := hanswered.exists_of_mem ((service_mem_iff hinterpreted).mpr ⟨hmem, rfl⟩)
    exact ha.trans (hfind known username)
  · intro userId a hmem
    obtain ⟨known, ha⟩ := hanswered.exists_of_mem ((service_mem_iff hinterpreted).mpr ⟨hmem, rfl⟩)
    exact ha.trans (hread known userId)

/-! ## A provider that has one reply -/

namespace Sample
open Exchange (apiReplies authReplies)
open TopUp.Sample (user account hundred calm)

def deployment : Deployment := ⟨fun _ => ⟨"http://wallet", "id", "secret", "signature"⟩, fun _ => .forProviders⟩

/-- There is a token, and whatever it is sent with gets the same reply. -/
def answering (reply : Reply) : Interface.Responder Deployed := fun _ question =>
  match question with
  | .service question => calm [] question
  | .provider _ question =>
    match question with
    | .readSlot => some "new"
    | .fillSlot _ | .clearSlot | .pause _ | .count _ => ()
    | .authenticate _ => ProviderClient.Sample.fetch.reply
    | .call _ => .ok reply
    | .draw => ⟨0, by decide⟩
    | .now => .epoch
    | .fresh => default

section
variable {reply : Reply} {history : Deployed.History} (hanswered : Answered (answering reply) [] history)
include hanswered

theorem eq_of_mem_exchange {q : Exchange.Question} {a : Exchange.Answer q}
    (h : (⟨q, a⟩ : Exchange.Entry) ∈ exchangeWith .shopeePay history) :
    a = answering reply [] (.provider .shopeePay q) := by
  obtain ⟨known, ha⟩ := hanswered.exists_of_mem (mem_of_mem_exchangeWith h)
  exact ha

theorem call_answer {answer : Except String Reply} (h : answer ∈ apiReplies (exchangeWith .shopeePay history)) :
    answer = .ok reply := by
  obtain ⟨call, hmem⟩ := Exchange.exists_call_of_mem_apiReplies h
  exact eq_of_mem_exchange hanswered hmem

theorem authenticate_answer {answer : Except String Reply}
    (h : answer ∈ authReplies (exchangeWith .shopeePay history)) : answer = ProviderClient.Sample.fetch.reply := by
  obtain ⟨request, hmem⟩ := Exchange.exists_authenticate_of_mem_authReplies h
  exact eq_of_mem_exchange hanswered hmem

theorem token_eq {token : String} (h : ProviderClient.Obtained (exchangeWith .shopeePay history) token) :
    token = "new" := by
  rcases h with hslot | ⟨answer, hmem, htoken⟩
  · exact Option.some.inj (eq_of_mem_exchange hanswered hslot)
  · rw [authenticate_answer hanswered hmem] at htoken
    exact Except.ok.inj (htoken.symm.trans ProviderClient.Sample.fetch_token)

theorem not_denied (hrefusal : ProviderClient.refuses .shopeePay (.ok reply) = false) :
    ¬ (deployment.client .shopeePay).Denied (exchangeWith .shopeePay history) := by
  rintro (⟨hmem, hreason⟩ | hrefused)
  · rw [authenticate_answer hanswered hmem] at hreason
    cases hreason.symm.trans ProviderClient.Sample.fetch_token
  · have hnone : (apiReplies (exchangeWith .shopeePay history)).countP (ProviderClient.refuses .shopeePay) = 0 := by
      refine List.countP_eq_zero.mpr fun answer hmem => ?_
      rw [call_answer hanswered hmem, hrefusal]
      decide
    rw [client_method, hnone] at hrefused
    omega

theorem not_unanswered (hserver : reply.isServerError = false) {bytes : List UInt8} (hbody : reply.body = .ok bytes) :
    ¬ (deployment.client .shopeePay).Unanswered (exchangeWith .shopeePay history) := by
  rintro (hcount | hmem | ⟨hanswers, hbroken⟩ | ⟨hobtained, htoken⟩)
  · have hnone : (apiReplies (exchangeWith .shopeePay history)).countP Exchange.isServerError = 0 := by
      refine List.countP_eq_zero.mpr fun answer hmem => ?_
      rw [call_answer hanswered hmem]
      exact ne_true_of_eq_false hserver
    omega
  · cases call_answer hanswered hmem
  · cases call_answer hanswered hanswers.mem
    cases hbroken.symm.trans hbody
  · rw [token_eq hanswered hobtained] at htoken
    revert htoken
    decide +kernel

theorem responded {r : Except Fault WalletView} {Shown : WalletBalance → Prop}
    (hconcludes : (deployment.client .shopeePay).Concludes (exchangeWith .shopeePay history) r Shown)
    (hserver : reply.isServerError = false) (hrefusal : ProviderClient.refuses .shopeePay (.ok reply) = false)
    {bytes : List UInt8} (hbody : reply.body = .ok bytes) :
    (deployment.client .shopeePay).Responded (exchangeWith .shopeePay history)
      ⟨reply.status, ProviderClient.bodyText bytes⟩ := by
  obtain ⟨hdenied, -⟩ | ⟨-, hunanswered, -⟩ | ⟨-, -, response, ⟨reply', hanswers, hresponse⟩, -⟩ := hconcludes.one
  · exact absurd hdenied (not_denied hanswered hrefusal)
  · exact absurd hunanswered (not_unanswered hanswered hserver hbody)
  · cases call_answer hanswered hanswers.mem
    exact ⟨reply, hanswers, by rw [ProviderClient.responseOf, hbody]⟩

end

def forbidden : Reply := ⟨403, .ok []⟩

def walletText : String :=
  "\x7b\"result\":\"SUCCESS\",\"balance_info\":\x7b\"user_id\":\"8970812\",\"available_balance\":250000.5," ++
    "\"currency_code\":\"IDR\",\"last_transaction_date\":\"1970-01-01T00:00:00Z\"\x7d\x7d"

def stated : Reply := ⟨200, .ok (Text.bytes walletText)⟩

def statement : ProviderClient.Statement := ⟨"8970812", .finite false 8589951771869184 1039, "IDR", some .epoch⟩

theorem statement?_walletText : (deployment.client .shopeePay).statement? walletText = .ok statement := by
  decide +kernel

def amount : Decimal := ⟨false, 2500005, 1, by decide, by decide⟩

theorem ofBinary64?_statement : Decimal.ofBinary64? statement.amount = some amount := by decide +kernel

theorem inRange_statement : statement.amount.InRange := by
  have hcanonical : statement.amount.Canonical := ProviderClient.statement?_canonical statement?_walletText
  rw [← Decimal.isSome_ofBinary64?_iff hcanonical, ofBinary64?_statement]
  rfl

end Sample

theorem walletBalance_decided_forbidden_stated :
    (∃ history r, (Answered (Sample.answering Sample.forbidden) [] history ∧
        (Sample.deployment.walletBalance TopUp.Sample.user.username "SHOPEE_PAY").Yields history r) ∧
      exchangeWith .gopay history = [] ∧ ProviderClient.FailsWith 400 r) ∧
    ∃ history, (Answered (Sample.answering Sample.stated) [] history ∧
      (Sample.deployment.walletBalance TopUp.Sample.user.username "SHOPEE_PAY").Yields history
        (.ok ⟨.shopeePay, Sample.amount, "IDR", "A-1", .epoch⟩)) := by
  constructor
  · obtain ⟨history, r, ⟨hanswered, hyields⟩, houtcome, -⟩ := walletBalance_decided Sample.deployment
      (fun _ => some TopUp.Sample.user) (fun _ => some (TopUp.Sample.account TopUp.Sample.hundred))
      TopUp.Sample.user.username "SHOPEE_PAY" (Sample.answering Sample.forbidden) (fun _ _ => rfl) (fun _ _ => rfl)
    obtain ⟨hothers, -, hconcludes⟩ := houtcome.asked TopUp.Sample.user .shopeePay rfl rfl
    have hresponded := Sample.responded hanswered hconcludes rfl rfl rfl
    exact ⟨history, r, ⟨hanswered, hyields⟩, hothers .gopay nofun,
      hconcludes.rejected _ hresponded (by decide) (by decide)⟩
  · obtain ⟨history, r, ⟨hanswered, hyields⟩, houtcome, -⟩ := walletBalance_decided Sample.deployment
      (fun _ => some TopUp.Sample.user) (fun _ => some (TopUp.Sample.account TopUp.Sample.hundred))
      TopUp.Sample.user.username "SHOPEE_PAY" (Sample.answering Sample.stated) (fun _ _ => rfl) (fun _ _ => rfl)
    obtain ⟨-, -, hconcludes⟩ := houtcome.asked TopUp.Sample.user .shopeePay rfl rfl
    have hresponded := Sample.responded hanswered hconcludes rfl rfl rfl
    rw [ProviderClient.bodyText_bytes (by decide +kernel)] at hresponded
    obtain ⟨amount, hamount, -, hshows⟩ := hconcludes.stated _ Sample.statement hresponded (by decide) (by decide)
      Sample.statement?_walletText Sample.inRange_statement
    obtain rfl : Sample.amount = amount := Option.some.inj (Sample.ofBinary64?_statement.symm.trans hamount)
    obtain ⟨lastUpdated, rfl, hdate | ⟨⟨⟩, -⟩⟩ := hshows.account _ rfl
    obtain rfl : .epoch = lastUpdated := Option.some.inj hdate
    exact ⟨history, hanswered, hyields⟩

end Deployment

end WalletTopUp
