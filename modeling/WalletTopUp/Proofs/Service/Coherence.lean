import WalletTopUp.Proofs.Json.Records
import WalletTopUp.Proofs.Service.Lookup
import WalletTopUp.Proofs.SideEffect.Invalidation
import WalletTopUp.Proofs.TopUp.Serving

/-!
# The cache in front of the ledger

Lookups fill the cache, top-ups change the ledger and delete from the cache, and entries expire. As long as one
operation follows on the other, every entry of the cache says what the ledger says now (`Coherent`): a lookup writes
what it has just read, and a debit is followed by the deletion of both entries of its user. So whatever fails on the
way, a lookup never answers anything but what the ledger holds (`lookups_coherent`). The one thing that is not kept is
the sign of a balance of nothing, which no debit leaves but which may have been there before
(`sign_missing_when_looked_up_again`).
-/

namespace WalletTopUp

/-! ## What can be looked up -/

inductive Facet where
  | account
  | balance
  deriving DecidableEq

namespace Facet

@[reducible] def View : Facet → Type
  | account => AccountView
  | balance => BalanceView

instance : (f : Facet) → Json.Form f.View
  | account => inferInstanceAs (Json.Form AccountView)
  | balance => inferInstanceAs (Json.Form BalanceView)

def view : (f : Facet) → Account → f.View
  | account => Account.view
  | balance => Account.balanceView

def key : Facet → String → String
  | account => CacheKey.account
  | balance => CacheKey.balance

def minutes : Facet → Nat
  | account => Service.accountMinutes
  | balance => Service.balanceMinutes

def look (f : Facet) (username : String) : Serving f.View :=
  Service.lookup (f.key username) f.minutes f.view username

def text (f : Facet) (a : Account) : String := Json.encode (f.view a)

theorem look_account (username : String) : Facet.account.look username = Service.account username := rfl

theorem look_balance (username : String) : Facet.balance.look username = Service.balance username := rfl

variable {f f' : Facet} {username username' : String} {a : Account}

theorem key_inj : f.key username = f'.key username' ↔ f = f' ∧ username = username' := by
  cases f <;> cases f' <;>
    simp [key, CacheKey.account_inj, CacheKey.balance_inj, CacheKey.account_ne_balance,
      CacheKey.account_ne_balance.symm]

theorem stale_key (f : Facet) (username : String) : SideEffect.Stale username (f.key username) := by
  cases f
  · exact .inr (.inr (.inr (.inl rfl)))
  · exact .inr (.inr (.inr (.inr rfl)))

theorem not_stale_key (h : username ≠ username') : ¬ SideEffect.Stale username' (f.key username) := by
  cases f
  · exact (SideEffect.not_stale_of_ne h).1
  · exact (SideEffect.not_stale_of_ne h).2

theorem decode_text (f : Facet) (a : Account) :
    (Json.decode (f.text a) : Except Json.Failure f.View) = .ok (f.view { a with balance := a.balance.plain }) := by
  cases f
  · exact (Json.decode_encode (AccountView.regular _)).trans (congrArg Except.ok (AccountView.plain_eq a.view))
  · exact (Json.decode_encode (BalanceView.regular _)).trans (congrArg Except.ok (BalanceView.plain_eq a.balanceView))

end Facet

/-! ## The store -/

def Ledger.accountOf? (users : String → Option User) (ledger : Ledger) (username : String) : Option Account :=
  (users username).bind fun user => ledger.account? user.id

/-- The ledger with the cache in front of it. -/
structure Store where
  ledger : Ledger
  cache : CacheStore

namespace Store

/-- From one state to the next the question of an entry may be answered as the entry says. Users and accounts are found
or cannot be read, a writing takes place or fails, and what could not be put into the cache may be there or not. -/
def Serves (users : String → Option User) (s : Store) (entry : Service.Entry) (s' : Store) : Prop :=
  match entry with
  | ⟨.findUser username, answer⟩ => (answer = .ok (users username) ∨ answer.isOk = false) ∧ s' = s
  | ⟨.readAccount userId, answer⟩ => (answer = .ok (s.ledger.account? userId) ∨ answer.isOk = false) ∧ s' = s
  | ⟨.writeBalance account, .ok rows⟩ =>
    rows = s.ledger.writes account ∧ s' = { s with ledger := s.ledger.write account }
  | ⟨.writeBalance _, .error _⟩ => s' = s
  | ⟨.readCache key, answer⟩ => (answer = .ok ((s.cache.lookup? key).map (·.value)) ∨ answer.isOk = false) ∧ s' = s
  | ⟨.writeCache key value minutes, answer⟩ =>
    s' = { s with cache := s.cache.put key ⟨value, some minutes⟩ } ∨ answer.isOk = false ∧ s' = s
  | _ => s' = s

/-- The text says what a user may see of the account now. -/
def Current (users : String → Option User) (ledger : Ledger) (f : Facet) (username text : String) : Prop :=
  ∃ account, ledger.accountOf? users username = some account ∧ text = f.text account

/-- All entries of users are current. -/
def Coherent (users : String → Option User) (s : Store) : Prop :=
  ∀ f username entry, s.cache.lookup? (Facet.key f username) = some entry →
    Current users s.ledger f username entry.value

end Store

open Store (Serves Current Coherent)

/-- What a reading of the ledger gives that nothing disturbs. -/
def Direct {α : Type} (users : String → Option User) (ledger : Ledger) (view : Account → α) (username : String)
    (r : Except Fault α) : Prop :=
  Performs (Ledger.Serves users) (Service.readView view username).run ledger r ledger

/-- The repository has answered with the fault. -/
def Faulted (history : Service.History) (fault : Fault) : Prop :=
  (∃ username, ⟨.findUser username, .error fault⟩ ∈ history) ∨ ∃ userId, ⟨.readAccount userId, .error fault⟩ ∈ history

section
variable {users : String → Option User} {s s' : Store} {ledger : Ledger} {f : Facet} {username : String}
  {history read : Service.History}

/-! ## A lookup -/

variable (users ledger username) in
def directly {α : Type} (view : Account → α) : Except Fault α :=
  match users username with
  | none => .error (.notFound (.of ("user not found: " ++ username)))
  | some user =>
    match ledger.account? user.id with
    | none => .error (.notFound (.of ("account not found for user: " ++ user.username)))
    | some account => .ok (view account)

theorem direct_iff {α : Type} {view : Account → α} {r : Except Fault α} :
    Direct users ledger view username r ↔ r = directly users ledger username view := by
  constructor
  · rintro ⟨history, hyields, hserved⟩
    cases Service.yields_readView_iff.mp hyields <;> simp [Ledger.Serves, eq_comm] at hserved
    · simp only [directly, hserved]
    · simp only [directly, hserved.1, ← hserved.2]
    · simp only [directly, hserved.1, ← hserved.2]
  · rintro rfl
    unfold directly
    rcases huser : users username with _ | user
    · exact ⟨_, Service.yields_readView_iff.mpr .noUser, by simp [Ledger.Serves, huser]⟩
    dsimp only
    rcases haccount : ledger.account? user.id with _ | account
    · refine ⟨_, Service.yields_readView_iff.mpr (.noAccount user), ?_⟩
      simp [Ledger.Serves, huser, haccount]
    · refine ⟨_, Service.yields_readView_iff.mpr (.read user account), ?_⟩
      simp [Ledger.Serves, huser, haccount]

theorem eq_of_answered {ε α : Type} {a b : α} (h : (.ok a : Except ε α) = .ok b ∨ (.ok a : Except ε α).isOk = false) :
    a = b := by
  obtain hok | hfailed := h
  · exact Except.ok.inj hok
  · cases hfailed

theorem served_findUser_iff {answer : Except Fault (Option User)} :
    Served (Serves users) s (⟨.findUser username, answer⟩ :: history) s' ↔
      (answer = .ok (users username) ∨ answer.isOk = false) ∧ Served (Serves users) s history s' := by
  simp [Serves, and_assoc]

theorem served_readAccount_iff {userId : Json.Word} {answer : Except Fault (Option Account)} :
    Served (Serves users) s (⟨.readAccount userId, answer⟩ :: history) s' ↔
      (answer = .ok (s.ledger.account? userId) ∨ answer.isOk = false) ∧ Served (Serves users) s history s' := by
  simp [Serves, and_assoc]

theorem directly_of_read {α : Type} {view : Account → α} {r : Except Fault α}
    (h : Service.Read view username read r) (hserved : Served (Serves users) s read s') :
    s' = s ∧ ((∃ fault, r = .error fault ∧ Faulted read fault) ∨ r = directly users s.ledger username view) := by
  cases h with
  | userFault fault =>
    obtain rfl := served_nil_iff.mp (served_findUser_iff.mp hserved).2
    exact ⟨rfl, .inl ⟨fault, rfl, .inl ⟨username, List.mem_cons_self⟩⟩⟩
  | noUser =>
    obtain ⟨huser, hnil⟩ := served_findUser_iff.mp hserved
    obtain rfl := served_nil_iff.mp hnil
    exact ⟨rfl, .inr (by simp only [directly, ← eq_of_answered huser])⟩
  | accountFault user fault =>
    obtain rfl := served_nil_iff.mp (served_readAccount_iff.mp (served_findUser_iff.mp hserved).2).2
    exact ⟨rfl, .inl ⟨fault, rfl, .inr ⟨user.id, by simp⟩⟩⟩
  | noAccount user =>
    obtain ⟨huser, hrest⟩ := served_findUser_iff.mp hserved
    obtain ⟨haccount, hnil⟩ := served_readAccount_iff.mp hrest
    obtain rfl := served_nil_iff.mp hnil
    exact ⟨rfl, .inr (by simp only [directly, ← eq_of_answered huser, ← eq_of_answered haccount])⟩
  | read user account =>
    obtain ⟨huser, hrest⟩ := served_findUser_iff.mp hserved
    obtain ⟨haccount, hnil⟩ := served_readAccount_iff.mp hrest
    obtain rfl := served_nil_iff.mp hnil
    exact ⟨rfl, .inr (by simp only [directly, ← eq_of_answered huser, ← eq_of_answered haccount])⟩

theorem exists_of_directly {α : Type} {view : Account → α} {a : α}
    (h : directly users ledger username view = .ok a) :
    ∃ account, ledger.accountOf? users username = some account ∧ a = view account := by
  unfold directly at h
  split at h
  · cases h
  next user huser =>
    split at h
    · cases h
    next account haccount =>
      cases h
      exact ⟨account, by simp [Ledger.accountOf?, huser, haccount], rfl⟩

theorem directly_of_accountOf? {α : Type} {account : Account} (view : Account → α)
    (h : ledger.accountOf? users username = some account) :
    directly users ledger username view = .ok (view account) := by
  obtain ⟨user, huser, haccount⟩ := Option.bind_eq_some_iff.mp h
  simp [directly, huser, haccount]

theorem Store.Coherent.put (h : Coherent users s) {account : Account}
    (haccount : s.ledger.accountOf? users username = some account) (minutes : Option Nat) :
    Coherent users { s with cache := s.cache.put (f.key username) ⟨f.text account, minutes⟩ } := by
  intro f' username' entry hentry
  by_cases hkey : f'.key username' = f.key username
  · obtain ⟨rfl, rfl⟩ := Facet.key_inj.mp hkey
    have hput : some entry = some ⟨f'.text account, minutes⟩ := hentry.symm.trans (CacheStore.lookup?_put_self _ _ _)
    cases hput
    exact ⟨account, haccount, rfl⟩
  · have hkept : s.cache.lookup? (f'.key username') = some entry :=
      (CacheStore.lookup?_put_of_ne _ _ hkey).symm.trans hentry
    exact h f' username' entry hkept

/-- A lookup answers what is there, and puts into the cache what is there. -/
theorem look_of_coherent (hcoherent : Coherent users s) {r : Except Fault f.View}
    (hyields : (f.look username).run.Yields history r) (hserved : Served (Serves users) s history s') :
    s'.ledger = s.ledger ∧ Coherent users s' ∧ ((∃ fault, r = .error fault ∧ Faulted history fault) ∨
      r = directly users s.ledger username f.view ∨
        ∃ account, s.ledger.accountOf? users username = some account ∧
          r = .ok (f.view { account with balance := account.balance.plain })) := by
  rcases Service.yields_lookup_iff.mp hyields with
    @⟨answer, a, hheld⟩ | @⟨answer, hheld, read, fault, hread⟩ | @⟨answer, hheld, read, a, hread, written⟩
  · obtain ⟨t, ⟨hanswer, rfl⟩, hnil⟩ := served_cons_iff.mp hserved
    obtain rfl := served_nil_iff.mp hnil
    refine ⟨rfl, hcoherent, .inr (.inr ?_)⟩
    rcases answer with reason | (_ | text)
    · cases hheld
    · cases hheld
    · obtain hanswer | hfailed := hanswer
      · obtain ⟨entry, hentry, rfl⟩ := Option.map_eq_some_iff.mp (Except.ok.inj hanswer).symm
        obtain ⟨account, haccount, htext⟩ := hcoherent f username entry hentry
        refine ⟨account, haccount, ?_⟩
        have hdecoded : (Json.decode entry.value : Except Json.Failure f.View).toOption = some a := hheld
        rw [htext, Facet.decode_text] at hdecoded
        exact congrArg Except.ok (Option.some.inj hdecoded).symm
      · cases hfailed
  · obtain ⟨t, ⟨-, rfl⟩, hrest⟩ := served_cons_iff.mp hserved
    obtain ⟨rfl, hr⟩ := directly_of_read hread hrest
    refine ⟨rfl, hcoherent, ?_⟩
    rcases hr with ⟨fault', hfault, hmem⟩ | hdirect
    · refine .inl ⟨fault', hfault, hmem.imp ?_ ?_⟩
      · exact fun ⟨username, hmem⟩ => ⟨username, List.mem_cons_of_mem _ hmem⟩
      · exact fun ⟨userId, hmem⟩ => ⟨userId, List.mem_cons_of_mem _ hmem⟩
    · exact .inr (.inl hdirect)
  · obtain ⟨t, ⟨-, rfl⟩, hrest⟩ := served_cons_iff.mp hserved
    obtain ⟨u, hreads, hwrite⟩ := served_append_iff.mp hrest
    obtain ⟨rfl, ⟨fault', hfault, -⟩ | hdirect⟩ := directly_of_read hread hreads
    · cases hfault
    obtain ⟨account, haccount, rfl⟩ := exists_of_directly hdirect.symm
    obtain ⟨v, hput, hnil⟩ := served_cons_iff.mp hwrite
    obtain rfl := served_nil_iff.mp hnil
    rcases hput with rfl | ⟨-, rfl⟩
    · exact ⟨rfl, hcoherent.put haccount _, .inr (.inl hdirect)⟩
    · exact ⟨rfl, hcoherent, .inr (.inl hdirect)⟩

/-! ## A top-up with its tasks -/

/-- The transactions that are handed to the side effects, with their users. -/
def dispatched (history : Service.History) : List (String × Transaction) :=
  history.filterMap fun
    | ⟨.dispatch username t, _⟩ => some (username, t)
    | _ => none

/-- No reading of an account fails after a debit. -/
def Rereads (history : Service.History) : Prop :=
  ∀ before account rows after, history = before ++ ⟨.writeBalance account, .ok rows⟩ :: after →
    ∀ userId fault, ⟨.readAccount userId, .error fault⟩ ∉ after

/-- The tasks for each of the transactions run to their ends, in any order, and no deletion fails. -/
inductive Follows : List (String × Transaction) → CacheStore → CacheStore → Prop
  | none (cache : CacheStore) : Follows [] cache cache
  | tasks {p : Publisher} {username : String} {t : Transaction} {transport : Nat → Except String Delivery}
      {cache cache' : CacheStore} {log : List (Fin (SideEffect.tasks username).length × SideEffect.Entry)}
      {r : Fin (SideEffect.tasks username).length → SideEffect.Outcome} {s : SideEffect.Surroundings}
      {rest : List (String × Transaction)}
      (h : Interleaved (SideEffect.Serves (fun _ => false) transport) (SideEffect.runs p username t) ⟨cache, 0⟩ log r s)
      (hrest : Follows rest s.cache cache') : Follows ((username, t) :: rest) cache cache'

/-- How a top-up leaves the store. -/
inductive ToppedUp (users : String → Option User) (registry : Registry) (request : TopUpRequest) (username : String)
    (s : Store) (history : Service.History) : Store → Prop
  | unchanged (h : dispatched history = []) : ToppedUp users registry request username s history s
  | debited {p : TopUp.Placing} {d : TopUp.Debit} (hp : p.Admitted registry request) (hdebits : p.Debits d request)
      (huser : users username = some p.user) (haccount : s.ledger.account? p.user.id = some p.account) {t : Transaction}
      (h : dispatched history = [(username, t)]) :
      ToppedUp users registry request username s history { s with ledger := s.ledger.write (p.debited d) }

section
variable {registry : Registry} {request : TopUpRequest}

theorem Store.served_debit_iff {p : TopUp.Placing} {d : TopUp.Debit} {rows : Nat} :
    Served (Serves users) s (p.debitHistory d request (.ok rows) ++ history) s' ↔
      rows = s.ledger.writes (p.debited d) ∧
        Served (Serves users) { s with ledger := s.ledger.write (p.debited d) } history s' := by
  simp [TopUp.Placing.debitHistory, Serves]

theorem toppedUp_of_execute {r : Except Stop Receipt} (hsound : s.ledger.Sound) (hrereads : Rereads history)
    (hyields : (TopUp.execute registry username request).run.Yields history r)
    (hserved : Served (Serves users) s history s') : ToppedUp users registry request username s history s' := by
  rcases TopUp.yields_execute_iff.mp hyields with ⟨fault, hrefused, -⟩ | ⟨p, rest, hp, rfl, hvalid⟩
  · rcases hrefused.history_cases with rfl | ⟨answer, rfl⟩ | ⟨user, answer, rfl⟩
    · obtain rfl := served_nil_iff.mp hserved
      exact .unchanged rfl
    · obtain rfl := served_nil_iff.mp (served_findUser_iff.mp hserved).2
      exact .unchanged rfl
    · obtain rfl := served_nil_iff.mp (served_readAccount_iff.mp (served_findUser_iff.mp hserved).2).2
      exact .unchanged rfl
  obtain ⟨huser, hrest⟩ := served_findUser_iff.mp hserved
  obtain ⟨haccount, hrest⟩ := served_readAccount_iff.mp hrest
  replace huser := (eq_of_answered huser).symm
  replace haccount := (eq_of_answered haccount).symm
  replace hrest : Served (Serves users) s rest s' := by simpa [Serves] using hrest
  have hreread : ∀ d : TopUp.Debit, (s.ledger.write (p.debited d)).account? p.user.id = some (p.debited d) := fun d =>
    Ledger.account?_write_of_eq hsound haccount rfl
  rcases hvalid with _ | _ | ⟨d, hd, fault⟩ | ⟨d, hd, rows, fault⟩ | ⟨d, hd, rows⟩ | ⟨d, hd, rows, current, now, id⟩
  · obtain rfl : s' = s := by simpa [Serves] using hrest
    exact .unchanged rfl
  · obtain rfl : s' = s := by simpa [Serves] using hrest
    exact .unchanged rfl
  · obtain rfl : s' = s := by simpa [TopUp.Placing.debitHistory, Serves] using hrest
    exact .unchanged rfl
  · have hfailed := hrereads (p.history username ++
      [⟨.orderTopUp p.provider (p.order request), .ok (some d.acceptance)⟩, ⟨.now, d.now⟩]) (p.debited d) rows
      [⟨.readAccount p.user.id, .error fault⟩] (by simp [TopUp.Placing.debitHistory])
    exact absurd (List.mem_singleton_self _) (hfailed p.user.id fault)
  -- the account has been written, so it is found again
  · obtain ⟨hvanished, -⟩ := served_readAccount_iff.mp (Store.served_debit_iff.mp hrest).2
    have hnone : none = (s.ledger.write (p.debited d)).account? p.user.id := eq_of_answered hvanished
    rw [hreread] at hnone
    cases hnone
  · obtain ⟨-, hend⟩ := served_readAccount_iff.mp (Store.served_debit_iff.mp hrest).2
    obtain rfl : s' = { s with ledger := s.ledger.write (p.debited d) } := by simpa [Serves] using hend
    exact .debited hp hd huser haccount rfl

theorem toppedUp_of_yields {r : Except Stop Receipt} (hsound : s.ledger.Sound) (hrereads : Rereads history)
    (hyields : (TopUp.topUp registry username request).Yields history r)
    (hserved : Served (Serves users) s history s') : ToppedUp users registry request username s history s' := by
  obtain ⟨first, hfirst, rfl⟩ := TopUp.yields_topUp_iff.mp hyields
  obtain ⟨t, hserved, hcount⟩ := served_append_iff.mp hserved
  have hcounted : s' = t ∧ dispatched (first ++ TopUp.counted request r) = dispatched first := by
    rcases r with (fault | _) | receipt <;> simpa [TopUp.counted, Serves, dispatched] using hcount
  obtain ⟨rfl, hdispatched⟩ := hcounted
  have hfirstRereads : Rereads first := by
    intro before account rows after hsplit userId fault hmem
    refine hrereads before account rows (after ++ TopUp.counted request r) ?_ userId fault (List.mem_append_left _ hmem)
    rw [hsplit, List.append_assoc, List.cons_append]
  rcases toppedUp_of_execute hsound hfirstRereads hfirst hserved with hnone | ⟨hp, hdebits, huser, haccount, hone⟩
  · exact .unchanged (hdispatched.trans hnone)
  · exact .debited hp hdebits huser haccount (hdispatched.trans hone)

end

/-! ## Any sequence of operations -/

/-- One operation, from its beginning to its end: a lookup, a top-up with its tasks, or the expiry of an entry. -/
inductive Step (users : String → Option User) : Store → Store → Prop
  | looked {f : Facet} {username : String} {history : Service.History} {r : Except Fault f.View} {s s' : Store}
      (hyields : (f.look username).run.Yields history r) (hserved : Served (Serves users) s history s') :
      Step users s s'
  | toppedUp {registry : Registry} {username : String} {request : TopUpRequest} {history : Service.History}
      {r : Except Stop Receipt} {s s' : Store} {cache : CacheStore}
      (hyields : (TopUp.topUp registry username request).Yields history r)
      (hserved : Served (Serves users) s history s') (hrereads : Rereads history)
      (hfollows : Follows (dispatched history) s'.cache cache) :
      Step users s { s' with cache }
  | expired (s : Store) (key : String) : Step users s { s with cache := s.cache.drop (· = key) }

def Distinct (users : String → Option User) : Prop :=
  ∀ username username' user user', users username = some user → users username' = some user' → user.id = user'.id →
    username = username'

theorem accountOf?_write_of_ne (hdistinct : Distinct users) (hsound : ledger.Sound) {other : String}
    {account b a : Account} (haccount : ledger.accountOf? users username = some account) (hid : a.id = account.id)
    (hother : ledger.accountOf? users other = some b) (hne : other ≠ username) :
    (ledger.write a).accountOf? users other = some b := by
  obtain ⟨user, huser, hread⟩ := Option.bind_eq_some_iff.mp haccount
  obtain ⟨user', huser', hread'⟩ := Option.bind_eq_some_iff.mp hother
  have hids : b.id ≠ a.id := by
    intro hb
    obtain ⟨hmem, huserId⟩ := Ledger.mem_of_account? hread
    obtain ⟨hmem', huserId'⟩ := Ledger.mem_of_account? hread'
    obtain rfl : b = account := hsound.eq_of_id hmem' hmem (hb.trans hid)
    exact hne (hdistinct other username user' user huser' huser (huserId'.symm.trans huserId))
  exact Option.bind_eq_some_iff.mpr ⟨user', huser', Ledger.account?_write_of_ne hread' hids⟩

/-- After a debit everything is current again when the entries of the user are gone. -/
theorem Store.Coherent.debited (hcoherent : Coherent users s) (hdistinct : Distinct users) (hsound : s.ledger.Sound)
    {account a : Account} (haccount : s.ledger.accountOf? users username = some account) (hid : a.id = account.id)
    {cache : CacheStore} (hgone : ∀ f, cache.lookup? (Facet.key f username) = none)
    (hkept : ∀ f other, other ≠ username → cache.lookup? (Facet.key f other) = s.cache.lookup? (Facet.key f other)) :
    Coherent users ⟨s.ledger.write a, cache⟩ := by
  intro f other entry hentry
  by_cases hother : other = username
  · subst hother
    have hnone : cache.lookup? (f.key other) = none := hgone f
    rw [hnone] at hentry
    cases hentry
  · obtain ⟨b, hb, htext⟩ := hcoherent f other entry ((hkept f other hother).symm.trans hentry)
    exact ⟨b, accountOf?_write_of_ne hdistinct hsound haccount hid hb hother, htext⟩

/-- The tasks of one top-up delete what its debit has made stale, and nothing else. -/
theorem lookup?_of_follows {t : Transaction} {cache cache' : CacheStore} (h : Follows [(username, t)] cache cache')
    {key : String} :
    (SideEffect.Stale username key → cache'.lookup? key = none) ∧
      (¬ SideEffect.Stale username key → cache'.lookup? key = cache.lookup? key) := by
  rcases h with _ | @⟨p, _, _, transport, _, _, log, r, s, _, htasks, ⟨⟩⟩
  have hlookup : s.cache.lookup? key =
      if (SideEffect.drops username).any (·.covers key) then none else cache.lookup? key := by
    rw [SideEffect.cache_of_interleaved htasks, CacheStore.lookup?_drop]
    simp
  have hany : (SideEffect.drops username).any (·.covers key) = true ↔ SideEffect.Stale username key := by
    rw [List.any_eq_true, SideEffect.exists_covers_iff]
  rw [hlookup]
  exact ⟨fun hstale => if_pos (hany.mpr hstale), fun hstale => if_neg (mt hany.mp hstale)⟩

/-- What holds between two operations. -/
structure Store.Valid (users : String → Option User) (s : Store) : Prop where
  sound : s.ledger.Sound
  coherent : Coherent users s

open Store (Valid)

theorem Step.valid (hdistinct : Distinct users) (h : Step users s s') (hs : Valid users s) : Valid users s' := by
  obtain ⟨hsound, hcoherent⟩ := hs
  cases h with
  | looked hyields hserved =>
    obtain ⟨hledger, hcoherent', -⟩ := look_of_coherent hcoherent hyields hserved
    exact ⟨hledger ▸ hsound, hcoherent'⟩
  | @toppedUp registry username request history r _ t cache hyields hserved hrereads hfollows =>
    rcases toppedUp_of_yields hsound hrereads hyields hserved with
      hnone | @⟨p, d, hp, hdebits, huser, haccount, t, hone⟩
    · rw [hnone] at hfollows
      cases hfollows
      exact ⟨hsound, hcoherent⟩
    · rw [hone] at hfollows
      have howned : s.ledger.accountOf? users username = some p.account :=
        Option.bind_eq_some_iff.mpr ⟨p.user, huser, haccount⟩
      have hid : (p.debited d).id = p.account.id := rfl
      refine ⟨hsound.write _, hcoherent.debited hdistinct hsound howned hid ?_ ?_⟩
      · exact fun f => (lookup?_of_follows hfollows).1 (f.stale_key username)
      · exact fun f other hother => (lookup?_of_follows hfollows).2 (Facet.not_stale_key hother)
  | expired _ key =>
    refine ⟨hsound, fun f username entry hentry => hcoherent f username entry ?_⟩
    have hdrop : (s.cache.drop (· = key)).lookup? (f.key username) = some entry := hentry
    rw [CacheStore.lookup?_drop] at hdrop
    split at hdrop
    · cases hdrop
    · exact hdrop

/-- A debit leaves no balance of nothing with a sign, so an account with such a balance has not been touched. -/
theorem Step.mem_of_signed (h : Step users s s') (hs : Valid users s) {a : Account} (ha : a ∈ s'.ledger)
    (hsigned : a.balance.plain ≠ a.balance) : a ∈ s.ledger := by
  obtain ⟨hsound, hcoherent⟩ := hs
  cases h with
  | looked hyields hserved => rwa [(look_of_coherent hcoherent hyields hserved).1] at ha
  | @toppedUp registry username request history r _ t cache hyields hserved hrereads hfollows =>
    rcases toppedUp_of_yields hsound hrereads hyields hserved with _ | @⟨p, d, hp, hdebits⟩
    · exact ha
    · have hpositive : 0 < request.amount.units := TopUpRequest.units_pos_of_validate hp.valid
      have hcovered : request.amount.units ≤ p.account.balance.units := hp.covered
      have hbalance : p.account.balance.isZero = false :=
        eq_false_of_ne_true fun hzero => by have := Decimal.units_eq_zero_of_isZero hzero; omega
      have hamount : request.amount.isZero = false :=
        eq_false_of_ne_true fun hzero => by have := Decimal.units_eq_zero_of_isZero hzero; omega
      have hleft : d.balance.plain = d.balance := Decimal.plain_of_sub? hbalance hamount hdebits
      have hwritten : a ∈ s.ledger.write (p.debited d) := ha
      rw [Ledger.write_eq_map hsound] at hwritten
      obtain ⟨b, hb, rfl⟩ := List.mem_map.mp hwritten
      by_cases hid : b.id = (p.debited d).id
      · rw [Account.after_of_eq hid] at hsigned
        exact absurd hleft hsigned
      · rwa [Account.after_of_ne hid]
  | expired key => exact ha

theorem valid_of_fresh (hsound : s.ledger.Sound)
    (hfresh : ∀ username, s.cache.lookup? (CacheKey.account username) = none ∧
      s.cache.lookup? (CacheKey.balance username) = none) : Valid users s := by
  refine ⟨hsound, fun f username entry hentry => ?_⟩
  have hnone : s.cache.lookup? (f.key username) = none := by
    cases f
    · exact (hfresh username).1
    · exact (hfresh username).2
  rw [hnone] at hentry
  cases hentry

/-- What a lookup answers when the store is `s` and was `start` in the beginning. -/
inductive Answers {α : Type} (users : String → Option User) (start s : Store) (view : Account → α) (username : String)
    (history : Service.History) : Except Fault α → Prop
  /-- The repository fails. -/
  | faulted {fault : Fault} (h : Faulted history fault) : Answers users start s view username history (.error fault)
  /-- It is what a direct reading gives now. -/
  | direct {r : Except Fault α} (h : ∀ other, Direct users s.ledger view username other ↔ other = r) :
      Answers users start s view username history r
  /-- It is what a direct reading gives now, but without the sign of a balance that has been a zero with a sign from the
  beginning. -/
  | signless {account : Account}
      (h : ∀ other, Direct users s.ledger view username other ↔ other = .ok (view account))
      (hstart : account ∈ start.ledger) (hnegative : account.balance.negative = true)
      (hzero : account.balance.magnitude = 0) :
      Answers users start s view username history (.ok (view { account with balance := account.balance.plain }))

theorem look_answers {start : Store} (hs : Valid users s)
    (hsigned : ∀ a ∈ s.ledger, a.balance.plain ≠ a.balance → a ∈ start.ledger) {r : Except Fault f.View}
    (hyields : (f.look username).run.Yields history r) (hserved : Served (Serves users) s history s') :
    Answers users start s f.view username history r := by
  obtain ⟨-, -, ⟨fault, rfl, hfault⟩ | rfl | ⟨account, haccount, rfl⟩⟩ := look_of_coherent hs.coherent hyields hserved
  · exact .faulted hfault
  · exact .direct fun other => direct_iff
  have hdirect : ∀ other, Direct users s.ledger f.view username other ↔ other = .ok (f.view account) := by
    intro other
    rw [direct_iff, directly_of_accountOf? f.view haccount]
  by_cases hplain : account.balance.plain = account.balance
  · rw [hplain]
    exact .direct hdirect
  · obtain ⟨user, -, hread⟩ := Option.bind_eq_some_iff.mp haccount
    obtain ⟨hnegative, hzero⟩ := not_not.mp (mt Decimal.plain_eq_self_iff.mpr hplain)
    exact .signless hdirect (hsigned account (Ledger.mem_of_account? hread).1 hplain) hnegative hzero

/-- **The cache is never observed stale.** From a cache without entries of users, through any operations one after the
other, every lookup answers what a direct reading of the ledger gives at that moment. Only the sign of a zero may be
missing, if it has been there from the beginning. -/
theorem lookups_coherent {start : Store} (hdistinct : Distinct users) (hsound : start.ledger.Sound)
    (hfresh : ∀ username, start.cache.lookup? (CacheKey.account username) = none ∧
      start.cache.lookup? (CacheKey.balance username) = none)
    (hsteps : Relation.ReflTransGen (Step users) start s) (username : String) :
    (∀ history r s', (Service.account username).run.Yields history r → Served (Serves users) s history s' →
        Answers users start s Account.view username history r) ∧
      ∀ history r s', (Service.balance username).run.Yields history r → Served (Serves users) s history s' →
        Answers users start s Account.balanceView username history r := by
  have hvalid : Valid users s ∧ ∀ a ∈ s.ledger, a.balance.plain ≠ a.balance → a ∈ start.ledger := by
    induction hsteps with
    | refl => exact ⟨valid_of_fresh hsound hfresh, fun a ha _ => ha⟩
    | tail _ hstep ih =>
      obtain ⟨hs, hstart⟩ := ih
      exact ⟨hstep.valid hdistinct hs, fun a ha hsigned => hstart a (hstep.mem_of_signed hs ha hsigned) hsigned⟩
  obtain ⟨hs, hsigned⟩ := hvalid
  constructor
  · intro history r s' hyields hserved
    rw [← Facet.look_account] at hyields
    exact look_answers hs hsigned hyields hserved
  · intro history r s' hyields hserved
    rw [← Facet.look_balance] at hyields
    exact look_answers hs hsigned hyields hserved

end

/-! ## A lookup, a top-up, another lookup -/

theorem exists_follows (transactions : List (String × Transaction)) (cache : CacheStore) :
    ∃ cache', Follows transactions cache cache' := by
  induction transactions generalizing cache with
  | nil => exact ⟨cache, .none cache⟩
  | cons x rest ih =>
    obtain ⟨username, t⟩ := x
    have hanswers := SideEffect.exists_serves (fun _ => false) fun _ => .error "down"
    obtain ⟨log, r, s, htasks⟩ := (Underway.start (SideEffect.Serves (fun _ => false) fun _ => .error "down")
      (SideEffect.runs (.standard "transactions") username t) ⟨cache, 0⟩).exists_interleaved hanswers
    obtain ⟨cache', hrest⟩ := ih s.cache
    exact ⟨cache', .tasks htasks hrest⟩

namespace TopUp.Sample

/-- A wallet with nothing in the cache. -/
def store (balance : Decimal) : Store := ⟨[account balance], []⟩

def lookedUp (f : Facet) (balance : Decimal) : Store :=
  ⟨[account balance], CacheStore.put (f.key user.username) ⟨f.text (account balance), some f.minutes⟩ []⟩

/-- What is left of a small debt that is rounded off. -/
def roundedDebt : Decimal :=
  { Decimal.zero with negative := true, scale := Decimal.maxScale, scale_le := Nat.le_refl _ }

theorem distinct : Distinct users := by
  intro username username' x y hx hy _
  have hname : ∀ {name : String} {z : User}, users name = some z → name = user.username := by
    intro name z hz
    unfold users at hz
    split at hz
    · assumption
    · cases hz
  exact (hname hx).trans (hname hy).symm

theorem step_looked (f : Facet) (balance : Decimal) : Step users (store balance) (lookedUp f balance) := by
  have hmiss : Service.held? f.View (.ok none) = none := rfl
  have hread : Service.Read f.view user.username _ _ := .read user (account balance)
  have hyields : (f.look user.username).run.Yields _ _ :=
    Service.yields_lookup_iff.mpr (.filled hmiss hread (.ok ()))
  refine .looked hyields (served_cons_iff.mpr ⟨store balance, ⟨.inl rfl, rfl⟩, ?_⟩)
  refine served_findUser_iff.mpr ⟨.inl rfl, served_readAccount_iff.mpr ⟨.inl rfl, ?_⟩⟩
  exact .cons (.inl rfl) (.nil _)

theorem served_store (cache : CacheStore) :
    Served (Store.Serves users) ⟨[account hundred], cache⟩ (wholeHistory hundred sixty forty)
      ⟨[account forty], cache⟩ := by
  have hdebit : Ledger.write [account hundred] ((placing hundred).debited (debit forty)) = [account forty] := rfl
  refine served_findUser_iff.mpr ⟨.inl rfl, served_readAccount_iff.mpr ⟨.inl rfl, ?_⟩⟩
  refine .cons rfl (.cons rfl (Store.served_debit_iff.mpr ⟨rfl, ?_⟩))
  rw [hdebit]
  exact served_readAccount_iff.mpr ⟨.inl rfl, .cons rfl (.cons rfl (.cons rfl (.cons rfl (.nil _))))⟩

theorem step_toppedUp (cache : CacheStore) :
    ∃ cache', Step users ⟨[account hundred], cache⟩ ⟨[account forty], cache'⟩ := by
  have hyields := yields_topUp rfl sixty_le_hundred hundred_sub?_sixty
  have hrereads : Rereads (wholeHistory hundred sixty forty) := by
    intro before account rows after hsplit userId fault hmem
    have hread : (⟨.readAccount userId, .error fault⟩ : Service.Entry) ∈ wholeHistory hundred sixty forty := by
      rw [hsplit]
      exact List.mem_append_right _ (List.mem_cons_of_mem _ hmem)
    simp [wholeHistory, settlement, Placing.history, Placing.debitHistory, ending, counted] at hread
  obtain ⟨cache', hfollows⟩ := exists_follows (dispatched (wholeHistory hundred sixty forty)) cache
  exact ⟨cache', .toppedUp hyields (served_store cache) hrereads hfollows⟩

end TopUp.Sample

open TopUp.Sample in
theorem lookups_coherent_amber :
    ∃ cache, Relation.ReflTransGen (Step users) (store hundred) ⟨[account forty], cache⟩ ∧
      (∀ history r s', (Service.account user.username).run.Yields history r →
          Served (Store.Serves users) ⟨[account forty], cache⟩ history s' →
            Answers users (store hundred) ⟨[account forty], cache⟩ Account.view user.username history r) ∧
        ∀ history r s', (Service.balance user.username).run.Yields history r →
          Served (Store.Serves users) ⟨[account forty], cache⟩ history s' →
            Answers users (store hundred) ⟨[account forty], cache⟩ Account.balanceView user.username history r := by
  obtain ⟨cache, hstep⟩ := step_toppedUp (lookedUp .account hundred).cache
  have hsteps := (Relation.ReflTransGen.single (step_looked .account hundred)).tail hstep
  exact ⟨cache, hsteps, lookups_coherent distinct sound (fun _ => ⟨rfl, rfl⟩) hsteps user.username⟩

open TopUp.Sample in
/-- A balance that is a zero with a sign is shown without the sign the second time, and a direct reading shows it. -/
theorem sign_missing_when_looked_up_again :
    Decimal.ofText? "-0.4e-28" = some roundedDebt ∧ Distinct users ∧ (store roundedDebt).ledger.Sound ∧
      (∀ username, (store roundedDebt).cache.lookup? (CacheKey.account username) = none ∧
        (store roundedDebt).cache.lookup? (CacheKey.balance username) = none) ∧
      Relation.ReflTransGen (Step users) (store roundedDebt) (lookedUp .balance roundedDebt) ∧
      ∃ history r, (Service.balance user.username).run.Yields history (.ok r) ∧
        Served (Store.Serves users) (lookedUp .balance roundedDebt) history (lookedUp .balance roundedDebt) ∧
        ∃ direct, Direct users (lookedUp .balance roundedDebt).ledger Account.balanceView user.username (.ok direct) ∧
          r ≠ direct := by
  refine ⟨by decide +kernel, distinct, sound, fun _ => ⟨rfl, rfl⟩, .single (step_looked .balance roundedDebt), ?_⟩
  have hheld : Service.held? BalanceView (.ok (some (Facet.balance.text (account roundedDebt)))) =
      some (account { roundedDebt with negative := false }).balanceView :=
    congrArg Except.toOption (Facet.balance.decode_text (account roundedDebt))
  refine ⟨_, _, Service.yields_lookup_iff.mpr (.held hheld), .cons ⟨.inl rfl, rfl⟩ (.nil _),
    (account roundedDebt).balanceView, direct_iff.mpr rfl, fun hsame => ?_⟩
  cases congrArg (·.balance.negative) hsame

end WalletTopUp
