import WalletTopUp.Proofs.Service.Coherence
import WalletTopUp.Proofs.TopUp.WalletLookup

/-!
# On behalf of one user

A user may look things up, look at a wallet and top a wallet up. Whatever the collaborators answer, such an operation
asks for nothing but what concerns its user (`onBehalf_of_yields`): the entries of the cache under the user's own keys,
the user's own record, and the account of that record, which is also the one that is debited and named to the provider
and in the transaction.
-/

namespace WalletTopUp

/-- What a user may ask of the service. -/
inductive Operation where
  | look (f : Facet)
  | wallet (walletType : String)
  | topUp (request : TopUpRequest)

namespace Operation

@[reducible] def Result : Operation → Type
  | look f => Except Fault f.View
  | wallet _ => Except Fault WalletView
  | topUp _ => Except Stop Receipt

def program (registry : Registry) (username : String) : (op : Operation) → Program Service op.Result
  | look f => (f.look username).run
  | wallet walletType => (TopUp.walletBalance registry username walletType).run
  | topUp request => TopUp.topUp registry username request

end Operation

/-! ## What concerns a user -/

section
variable (username : String) (past : Service.History)

def Found (user : User) : Prop := (⟨.findUser username, .ok (some user)⟩ : Service.Entry) ∈ past

/-- The account of the user has been read under the id of the user's record. -/
def Owned (user : User) (account : Account) : Prop :=
  Found username past user ∧ (⟨.readAccount user.id, .ok (some account)⟩ : Service.Entry) ∈ past

/-- After what was asked and answered before, a question concerns the user and nobody else. -/
def Concerns : Service.Question → Prop
  | .findUser name => name = username
  | .readAccount userId => ∃ user, Found username past user ∧ userId = user.id
  | .writeBalance a => ∃ user account, Owned username past user account ∧ a.id = account.id
  | .readCache key | .writeCache key _ _ => ∃ f : Facet, key = f.key username
  | .orderTopUp _ order => ∃ user account, Owned username past user account ∧ order.accountId = account.id
  | .walletBalance _ walletId _ =>
    ∃ user, ∃ method : PaymentMethod, Found username past user ∧ walletId = method.walletId user.phoneNumber
  | .dispatch name t =>
    name = username ∧ ∃ user account, Owned username past user account ∧ t.userId = user.id ∧ t.accountId = account.id
  | .now | .fresh | .count _ => True

end

/-- Every question of a history that follows on the entries `past` concerns the user. -/
def OnBehalf (username : String) : (past : Service.History) → Service.History → Prop
  | _, [] => True
  | past, entry :: rest => Concerns username past entry.1 ∧ OnBehalf username (past ++ [entry]) rest

section
variable {registry : Registry} {username : String} {past first rest : Service.History} {history : Service.History}

theorem onBehalf_append_iff :
    OnBehalf username past (first ++ rest) ↔ OnBehalf username past first ∧ OnBehalf username (past ++ first) rest := by
  induction first generalizing past with
  | nil => simp [OnBehalf]
  | cons entry first ih => simp [OnBehalf, ih, and_assoc]

/-! ## The operations -/

theorem onBehalf_of_read {α : Type} {view : Account → α} {r : Except Fault α}
    (h : Service.Read view username history r) : OnBehalf username past history := by
  cases h <;> simp [OnBehalf, Concerns, Found]

theorem onBehalf_of_looked {f : Facet} {r : Except Fault f.View}
    (h : Service.Looked f.view username (f.key username) f.minutes history r) : OnBehalf username past history := by
  have hkey : ∃ f' : Facet, f.key username = f'.key username := ⟨f, rfl⟩
  cases h with
  | held => exact ⟨hkey, trivial⟩
  | failed _ hread => exact ⟨hkey, onBehalf_of_read hread⟩
  | filled _ hread _ => exact ⟨hkey, onBehalf_append_iff.mpr ⟨onBehalf_of_read hread, hkey, trivial⟩⟩

namespace TopUp
variable {request : TopUpRequest} {walletType : String}

theorem WalletAsking.onBehalf (w : WalletAsking) (answer : Except ProviderFault WalletBalance) :
    OnBehalf username past (w.history username answer) := by
  refine ⟨rfl, trivial, ⟨w.user, w.method, ?_, rfl⟩, trivial⟩
  simp [Found]

theorem WalletAsking.found (w : WalletAsking) (answer : Except ProviderFault WalletBalance) :
    Found username (past ++ w.history username answer) w.user := by
  simp [Found, WalletAsking.history]

theorem onBehalf_of_walletLooked {r : Except Fault WalletView}
    (h : WalletLooked registry username walletType history r) : OnBehalf username past history := by
  rcases h with _ | _ | _ | ⟨w⟩ | ⟨w⟩ | ⟨w⟩ | ⟨w⟩ | ⟨w⟩
  · exact ⟨rfl, trivial⟩
  · exact ⟨rfl, trivial⟩
  · exact ⟨rfl, trivial⟩
  · exact w.onBehalf _
  all_goals
    refine onBehalf_append_iff.mpr ⟨w.onBehalf _, ⟨w.user, w.found _, rfl⟩, ?_⟩
  · trivial
  · trivial
  · trivial
  · exact ⟨trivial, trivial⟩

theorem Placing.onBehalf (p : Placing) : OnBehalf username past (p.history username) := by
  refine ⟨rfl, ⟨p.user, ?_, rfl⟩, trivial, trivial, trivial⟩
  simp [Found]

theorem Placing.owned (p : Placing) : Owned username (past ++ p.history username ++ history) p.user p.account := by
  simp [Owned, Found, Placing.history]

/-- The account that the order names and the debit writes is the one that was read. -/
theorem Placing.onBehalf_debit {p : Placing} {d : Debit} {written : Except Fault Nat}
    (howned : ∀ more, Owned username (past ++ more) p.user p.account) :
    OnBehalf username past (p.debitHistory d request written) := by
  refine ⟨⟨p.user, p.account, ?_, rfl⟩, trivial, ⟨p.user, p.account, ?_, rfl⟩, trivial⟩
  · simpa using howned []
  · simpa using howned _

theorem Settled.onBehalf {p : Placing} {r : Except Stop Receipt} (h : Settled username request p history r)
    (howned : ∀ more, Owned username (past ++ more) p.user p.account) : OnBehalf username past history := by
  have horder : Concerns username past (.orderTopUp p.provider (p.order request)) :=
    ⟨p.user, p.account, by simpa using howned [], rfl⟩
  have hread : ∀ more, Concerns username (past ++ more) (.readAccount p.user.id) := fun more =>
    ⟨p.user, (howned more).1, rfl⟩
  rcases h with _ | _ | _ | _ | _ | ⟨d, _, rows, current, now, id⟩
  · exact ⟨horder, trivial⟩
  · exact ⟨horder, trivial⟩
  · exact Placing.onBehalf_debit howned
  · exact onBehalf_append_iff.mpr ⟨Placing.onBehalf_debit howned, hread _, trivial⟩
  · exact onBehalf_append_iff.mpr ⟨Placing.onBehalf_debit howned, hread _, trivial⟩
  · refine onBehalf_append_iff.mpr ⟨Placing.onBehalf_debit howned, hread _, trivial, trivial, ⟨rfl, ?_⟩, trivial⟩
    -- the transaction names the account as it was read after the debit
    have huser := (howned (p.debitHistory d request (.ok rows) ++
      [⟨.readAccount p.user.id, .ok (some current)⟩, ⟨.now, now⟩, ⟨.fresh, id⟩])).1
    refine ⟨p.user, current, ⟨?_, ?_⟩, rfl, rfl⟩
    · simpa using huser
    · simp

theorem onBehalf_of_topUp {r : Except Stop Receipt} (h : (topUp registry username request).Yields history r) :
    OnBehalf username past history := by
  obtain ⟨first, hfirst, rfl⟩ := yields_topUp_iff.mp h
  have hcounted : ∀ more, OnBehalf username more (counted request r) := by
    intro more
    rcases r with (fault | _) | receipt
    · exact ⟨trivial, trivial⟩
    · trivial
    · exact ⟨trivial, trivial⟩
  refine onBehalf_append_iff.mpr ⟨?_, hcounted _⟩
  rcases yields_execute_iff.mp hfirst with ⟨fault, hrefused, -⟩ | ⟨p, rest, -, rfl, hsettled⟩
  · rcases hrefused.history_cases with rfl | ⟨answer, rfl⟩ | ⟨user, answer, rfl⟩
    · trivial
    · exact ⟨rfl, trivial⟩
    · refine ⟨rfl, ⟨user, ?_, rfl⟩, trivial⟩
      simp [Found]
  · exact onBehalf_append_iff.mpr ⟨p.onBehalf, hsettled.onBehalf fun more => p.owned⟩

end TopUp

/-- **An operation concerns its user only**, whatever the collaborators answer. -/
theorem Operation.onBehalf_of_yields {op : Operation} {r : op.Result}
    (h : (op.program registry username).Yields history r) : OnBehalf username past history := by
  cases op with
  | look f => exact onBehalf_of_looked (Service.yields_lookup_iff.mp h)
  | wallet walletType => exact TopUp.onBehalf_of_walletLooked (TopUp.yields_walletBalance_iff.mp h)
  | topUp request => exact TopUp.onBehalf_of_topUp h

end

namespace TopUp.Sample

def calm : Service.Responder := fun _ question =>
  match question with
  | .findUser _ => .ok (some user)
  | .readAccount _ => .ok (some (account hundred))
  | .writeBalance _ => .ok 1
  | .readCache _ => .ok none
  | .writeCache _ _ _ => .ok ()
  | .orderTopUp _ _ => .ok (some (debit forty).acceptance)
  | .walletBalance _ walletId _ => .ok ⟨walletId, hundred, currency, none⟩
  | .dispatch _ _ => ()
  | .now => .epoch
  | .fresh => default
  | .count _ => ()

end TopUp.Sample

end WalletTopUp
