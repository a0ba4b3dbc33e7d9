import WalletTopUp.Proofs.TopUp.Course

/-!
# The effects of a top-up

Everything that a top-up asks is an effect, except the time and random identifiers. `execute_orderly` states
what the effects are under all answers of all collaborators: they follow one fixed order and end early when
something is wrong (`inOrder`), the provider is called once at most (`placedOnce`) and after all checks
(`placedAfterChecks`), the account is written exactly when the provider has accepted (`written`), and the
transaction is handed on exactly when the caller gets a receipt (`handedOn`). Without an acceptance the caller
is told a fault and neither ledger nor cache nor event stream is touched (`untouched`).
-/

namespace WalletTopUp

instance : Inhabited Json.Word := ⟨0, by decide⟩

namespace Service

/-- Everything but the clock and random identifiers. -/
def Question.isEffect : Question → Bool
  | .now | .fresh => false
  | _ => true

/-- Changes the ledger or the cache, or leads to changes of the cache and the event stream. -/
def Question.isChange : Question → Bool
  | .writeBalance _ | .writeCache _ _ _ | .dispatch _ _ => true
  | _ => false

def effects (history : Service.History) : List Question := (history.map (·.1)).filter (·.isEffect)

def isOrder : Service.Entry → Bool
  | ⟨.orderTopUp _ _, _⟩ => true
  | _ => false

def isAcceptance : Service.Entry → Bool
  | ⟨.orderTopUp _ _, .ok (some _)⟩ => true
  | _ => false

def isRead : Service.Entry → Bool
  | ⟨.readAccount _, _⟩ => true
  | _ => false

def isWrite : Service.Entry → Bool
  | ⟨.writeBalance _, _⟩ => true
  | _ => false

def isDispatch : Service.Entry → Bool
  | ⟨.dispatch _ _, _⟩ => true
  | _ => false

end Service

deriving instance Inhabited for User, Account, TopUpOrder, Transaction

namespace TopUp
open Service (effects isOrder isAcceptance isWrite isDispatch)

/-- The effects of a top-up that goes all the way, in their order. -/
def way (username : String) (user : User) (provider : Nat) (order : TopUpOrder) (debited : Account)
    (transaction : Transaction) : List Service.Question :=
  [.findUser username, .readAccount user.id, .orderTopUp provider order, .writeBalance debited,
    .readAccount user.id, .dispatch username transaction]

/-- What holds of the effects of a top-up. -/
structure Orderly (registry : Registry) (username : String) (request : TopUpRequest)
    (history : Service.History) (r : Except Stop Receipt) : Prop where
  /-- The account that is read is the one of the user that was found. -/
  inOrder : ∃ user provider order debited transaction,
    effects history <+: way username user provider order debited transaction ∧
    ∀ userId answer, ⟨.readAccount userId, answer⟩ ∈ history →
      (⟨.findUser username, .ok (some user)⟩ : Service.Entry) ∈ history
  placedOnce : history.countP isOrder ≤ 1
  /-- The history begins with the answers that admit the order. -/
  placedAfterChecks : ∀ provider order answer, ⟨.orderTopUp provider order, answer⟩ ∈ history →
    ∃ p : Placing, p.Admitted registry request ∧ p.history username <+: history ∧
      provider = p.provider ∧ order = p.order request
  written : history.countP isWrite = history.countP isAcceptance
  handedOn : history.countP isDispatch = if r.isOk then 1 else 0
  untouched : history.countP isAcceptance = 0 →
    (∃ fault, r = .error (.fault fault)) ∧ ∀ entry ∈ history, entry.1.isChange = false

section
variable {registry : Registry} {username : String} {request : TopUpRequest} {history : Service.History}
  {r : Except Stop Receipt} {p : Placing}

theorem Refused.history_cases {fault : Fault} (h : Refused registry username request history fault) :
    history = [] ∨ (∃ answer, history = [⟨.findUser username, answer⟩]) ∨
      ∃ user answer, history = [⟨.findUser username, .ok (some user)⟩, ⟨.readAccount user.id, answer⟩] := by
  rcases h with _ | ⟨_, fault⟩ | _ | ⟨_, user, fault⟩ | ⟨_, user⟩ | ⟨_, user⟩ | ⟨_, user⟩ | ⟨_, user⟩
  · exact .inl rfl
  · exact .inr (.inl ⟨_, rfl⟩)
  · exact .inr (.inl ⟨_, rfl⟩)
  all_goals exact .inr (.inr ⟨user, _, rfl⟩)

theorem Refused.orderly {fault : Fault} (h : Refused registry username request history fault) :
    Orderly registry username request history (.error (.fault fault)) := by
  rcases h.history_cases with rfl | ⟨answer, rfl⟩ | ⟨user, answer, rfl⟩
  · constructor
    · exact ⟨default, 0, default, default, default, by simp [effects], by simp⟩
    all_goals simp [Except.toBool]
  · constructor
    · exact ⟨default, 0, default, default, default, by simp [effects, way, Service.Question.isEffect], by simp⟩
    all_goals simp [Except.toBool, isOrder, isWrite, isAcceptance, isDispatch, Service.Question.isChange]
  · constructor
    · exact ⟨user, 0, default, default, default, by simp [effects, way, Service.Question.isEffect], by simp⟩
    all_goals simp [Except.toBool, isOrder, isWrite, isAcceptance, isDispatch, Service.Question.isChange]

theorem Settled.exists_effects_prefix (h : Settled username request p history r) :
    ∃ debited transaction, effects history <+: [.orderTopUp p.provider (p.order request), .writeBalance debited,
      .readAccount p.user.id, .dispatch username transaction] := by
  rcases h with _ | _ | ⟨d⟩ | ⟨d⟩ | ⟨d⟩ | ⟨d, _, _, current, now, id⟩
  · exact ⟨default, default, by simp [effects, Service.Question.isEffect]⟩
  · exact ⟨default, default, by simp [effects, Service.Question.isEffect]⟩
  · exact ⟨p.debited d, default, by simp [effects, Placing.debitHistory, Service.Question.isEffect]⟩
  · exact ⟨p.debited d, default, by simp [effects, Placing.debitHistory, Service.Question.isEffect]⟩
  · exact ⟨p.debited d, default, by simp [effects, Placing.debitHistory, Service.Question.isEffect]⟩
  · exact ⟨p.debited d, p.record d request current now id,
      by simp [effects, Placing.debitHistory, Service.Question.isEffect]⟩

theorem Settled.placed_of_mem (h : Settled username request p history r) {provider : Nat} {order : TopUpOrder}
    {answer : Service.Answer (.orderTopUp provider order)}
    (hmem : ⟨.orderTopUp provider order, answer⟩ ∈ history) :
    provider = p.provider ∧ order = p.order request := by
  rcases h with _ | _ | _ | _ | _ | _ <;> simp_all [Placing.debitHistory]

theorem Settled.counts (h : Settled username request p history r) :
    history.countP isOrder = 1 ∧ history.countP isWrite = history.countP isAcceptance ∧
      history.countP isDispatch = (if r.isOk then 1 else 0) := by
  rcases h with _ | _ | _ | _ | _ | _ <;> exact ⟨rfl, rfl, rfl⟩

theorem Settled.eq_of_unaccepted (h : Settled username request p history r)
    (hunaccepted : history.countP isAcceptance = 0) :
    (∃ answer, history = [⟨.orderTopUp p.provider (p.order request), answer⟩]) ∧
      ∃ fault, r = .error (.fault fault) := by
  rcases h with _ | _ | _ | _ | _ | _
  · exact ⟨⟨_, rfl⟩, _, rfl⟩
  · exact ⟨⟨_, rfl⟩, _, rfl⟩
  all_goals simp [Placing.debitHistory, isAcceptance] at hunaccepted

theorem Settled.orderly (hp : p.Admitted registry request) (h : Settled username request p history r) :
    Orderly registry username request (p.history username ++ history) r := by
  have hbefore : (p.history username).countP isOrder = 0 ∧ (p.history username).countP isAcceptance = 0 ∧
      (p.history username).countP isWrite = 0 ∧ (p.history username).countP isDispatch = 0 := by
    simp [Placing.history, isOrder, isAcceptance, isWrite, isDispatch]
  obtain ⟨horders, hacceptances, hwrites, hdispatches⟩ := hbefore
  obtain ⟨hordered, hwritten, hdispatched⟩ := h.counts
  refine ⟨?inOrder, ?placedOnce, ?placedAfterChecks, ?written, ?handedOn, ?untouched⟩
  case inOrder =>
    obtain ⟨debited, transaction, hprefix⟩ := h.exists_effects_prefix
    refine ⟨p.user, p.provider, p.order request, debited, transaction, ?_, fun _ _ _ => by simp [Placing.history]⟩
    have heffects : effects (p.history username ++ history) =
        .findUser username :: .readAccount p.user.id :: effects history := by
      simp [effects, Placing.history, Service.Question.isEffect]
    rw [heffects, way]
    simpa using hprefix
  case placedOnce =>
    rw [List.countP_append, horders, hordered]
  case placedAfterChecks =>
    intro provider order answer hmem
    rw [List.mem_append] at hmem
    rcases hmem with hmem | hmem
    · simp [Placing.history] at hmem
    · exact ⟨p, hp, List.prefix_append _ _, h.placed_of_mem hmem⟩
  case written =>
    rw [List.countP_append, List.countP_append, hwrites, hacceptances, hwritten]
  case handedOn =>
    rw [List.countP_append, hdispatches, hdispatched, Nat.zero_add]
  case untouched =>
    intro hunaccepted
    rw [List.countP_append, hacceptances, Nat.zero_add] at hunaccepted
    obtain ⟨⟨answer, rfl⟩, hfault⟩ := h.eq_of_unaccepted hunaccepted
    refine ⟨hfault, ?_⟩
    simp [Placing.history, Service.Question.isChange]

/-- **The effects of a top-up**, whatever the collaborators answer. -/
theorem execute_orderly (h : (execute registry username request).run.Yields history r) :
    Orderly registry username request history r := by
  rcases yields_execute_iff.mp h with ⟨fault, hrefused, rfl⟩ | ⟨p, rest, hp, rfl, hsettled⟩
  · exact hrefused.orderly
  · exact hsettled.orderly hp

/-- A top-up that has written a balance has an acceptance for whatever it has ordered. -/
theorem accepted_of_written (h : (topUp registry username request).Yields history r) {provider : Nat}
    {order : TopUpOrder} {answer : Except ProviderFault (Option Acceptance)}
    (horder : (⟨.orderTopUp provider order, answer⟩ : Service.Entry) ∈ history)
    (hwritten : ∃ entry ∈ history, isWrite entry = true) : ∃ acceptance, answer = .ok (some acceptance) := by
  obtain ⟨first, hexecute, rfl⟩ := yields_topUp_iff.mp h
  have hcounted : ∀ entry ∈ counted request r, isOrder entry = false ∧ isWrite entry = false := by
    rcases r with (fault | _) | receipt <;> simp [counted, isOrder, isWrite]
  have hfirst : (⟨.orderTopUp provider order, answer⟩ : Service.Entry) ∈ first := by
    refine (List.mem_append.mp horder).resolve_right fun hmem => ?_
    simpa [isOrder] using (hcounted _ hmem).1
  have hwrites : ∃ entry ∈ first, isWrite entry = true := by
    obtain ⟨entry, hentry, hwrite⟩ := hwritten
    refine ⟨entry, (List.mem_append.mp hentry).resolve_right fun hmem => ?_, hwrite⟩
    simpa [hwrite] using (hcounted _ hmem).2
  rcases yields_execute_iff.mp hexecute with ⟨fault, hrefused, rfl⟩ | ⟨p, rest, hp, rfl, hsettled⟩
  · rcases hrefused.history_cases with rfl | ⟨_, rfl⟩ | ⟨_, _, rfl⟩ <;> simp at hfirst
  · rcases hsettled with _ | _ | ⟨d⟩ | ⟨d⟩ | ⟨d⟩ | ⟨d⟩
    -- an order that is not accepted is the end
    · simp [Placing.history, isWrite] at hwrites
    · simp [Placing.history, isWrite] at hwrites
    all_goals
      have hanswer : (provider = p.provider ∧ order = p.order request) ∧ answer = .ok (some d.acceptance) := by
        simpa [Placing.history, Placing.debitHistory] using hfirst
      exact ⟨d.acceptance, hanswer.2⟩

theorem execute_orderly_sixty :
    (execute Sample.registry Sample.user.username (Sample.request Sample.sixty)).run.Yields
        (Sample.history Sample.hundred Sample.sixty Sample.forty Sample.forty)
        (.ok (Sample.receipt Sample.hundred Sample.sixty Sample.forty Sample.forty)) ∧
      Orderly Sample.registry Sample.user.username (Sample.request Sample.sixty)
        (Sample.history Sample.hundred Sample.sixty Sample.forty Sample.forty)
        (.ok (Sample.receipt Sample.hundred Sample.sixty Sample.forty Sample.forty)) := by
  have hyields := Sample.yields_execute Sample.forty rfl Sample.sixty_le_hundred Sample.hundred_sub?_sixty
  exact ⟨hyields, execute_orderly hyields⟩

end

end TopUp

end WalletTopUp
