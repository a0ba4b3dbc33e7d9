import WalletTopUp.Proofs.Provider.Sharing

/-!
# The keeper of a token

The slot of a provider is used in three ways: its token is taken, a new one is fetched, or the token is dropped. Any
number of these actions, one after the other, are `Turns`. What the slot holds afterwards is decided by the last reply
to a request for a token, or by a drop that came after it, and by nothing else (`slot_traced`).
-/

namespace WalletTopUp.ProviderClient
open Exchange (authReplies)

/-! ## Replies that bring a token -/

/-- The reply is a success, and its body is JSON with the token. -/
def Brings (token : String) (reply : Except String Reply) : Prop :=
  ∃ status bytes, reply = .ok ⟨status, .ok bytes⟩ ∧ 200 ≤ status ∧ status < 300 ∧
    tokenShape.whole (Text.decode bytes) = .ok (token, ())

theorem tokenOf?_eq_some_iff {body : Except String (List UInt8)} {token : String} :
    tokenOf? body = some token ↔
      ∃ bytes, body = .ok bytes ∧ tokenShape.whole (Text.decode bytes) = .ok (token, ()) := by
  unfold tokenOf?
  rcases body with reason | bytes
  · simp
  · simp only [Except.ok.injEq, exists_eq_left']
    rcases tokenShape.whole (Text.decode bytes) with reason | ⟨found, ⟨⟩⟩ <;> simp

theorem tokenOfReply_eq_ok_iff {reply : Except String Reply} {token : String} :
    tokenOfReply reply = .ok token ↔ Brings token reply := by
  rcases reply with reason | ⟨status, body⟩
  · simp [tokenOfReply, Brings]
  have hbrings : Brings token (.ok ⟨status, body⟩) ↔ Http.isSuccess status = true ∧ tokenOf? body = some token := by
    rw [tokenOf?_eq_some_iff, Http.isSuccess, Bool.and_eq_true, decide_eq_true_iff, decide_eq_true_iff]
    constructor
    · rintro ⟨_, bytes, ⟨rfl, rfl⟩, hlow, hhigh, htoken⟩
      exact ⟨⟨hlow, hhigh⟩, bytes, rfl, htoken⟩
    · rintro ⟨⟨hlow, hhigh⟩, bytes, rfl, htoken⟩
      exact ⟨status, bytes, rfl, hlow, hhigh, htoken⟩
  rw [hbrings]
  simp only [tokenOfReply]
  split_ifs with hstatus
  · rcases tokenOf? body with _ | found <;> simp [hstatus]
  · simp [hstatus]

/-! ## Actions on the slot -/

inductive TokenAction where
  /-- The token of the slot, or a new one. -/
  | current
  /-- A new token. -/
  | fetch
  | drop
  deriving DecidableEq, Repr

/-- What is done, with the token that the caller gets. -/
def TokenAction.exchange (c : ProviderClient) : TokenAction → Exchanged (Option String)
  | current => do return some (← c.currentToken)
  | fetch => do return some (← c.fetchToken)
  | drop => do
    dropToken
    return none

/-- An action on the slot, from one content to the next. -/
structure Turn where
  action : TokenAction
  before : Option String
  history : Exchange.History
  result : Except ProviderFault (Option String)
  after : Option String

namespace Turn

/-- The action has taken its course alone. -/
structure Taken (c : ProviderClient) (turn : Turn) : Prop where
  yields : (turn.action.exchange c).run.Yields turn.history turn.result
  served : Served SlotServes turn.before turn.history turn.after

def Asks (turn : Turn) : Prop := turn.action = .fetch ∨ turn.action = .current ∧ turn.before = none

/-- All that an action can come to. -/
inductive Comes (c : ProviderClient) (turn : Turn) : Prop
  | held (token : String) (haction : turn.action = .current) (hbefore : turn.before = some token)
      (hhistory : turn.history = [⟨.readSlot, some token⟩]) (hresult : turn.result = .ok (some token))
      (hafter : turn.after = some token)
  | got (reply : Except String Reply) (token : String) (hasks : turn.Asks)
      (hreplies : authReplies turn.history = [reply])
      (htoken : tokenOfReply reply = .ok token) (hresult : turn.result = .ok (some token))
      (hafter : turn.after = some token)
  | failed (reply : Except String Reply) (reason : String) (hasks : turn.Asks)
      (hreplies : authReplies turn.history = [reply]) (htoken : tokenOfReply reply = .error reason)
      (hresult : turn.result = .error (.authentication c.method reason)) (hafter : turn.after = none)
  | dropped (haction : turn.action = .drop) (hreplies : authReplies turn.history = [])
      (hresult : turn.result = .ok none) (hafter : turn.after = none)

variable {c : ProviderClient} {turn : Turn}

theorem handed_of_cases {token : Except String String} {rest : Exchange.History}
    {result : Except ProviderFault (Option String)}
    (h : (∃ reason, token = .error reason ∧ rest = [] ∧ result = .error (c.refused reason)) ∨
      ∃ found, token = .ok found ∧ (pure (some found) : Exchanged (Option String)).run.Yields rest result) :
    rest = [] ∧ result = (token.map some).mapError c.refused := by
  obtain ⟨reason, rfl, rfl, rfl⟩ | ⟨found, rfl, h⟩ := h
  · exact ⟨rfl, rfl⟩
  · exact Attempt.yields_pure_iff.mp h

theorem Comes.of_fetch (fetch : Fetch) (hasks : turn.Asks) (hreplies : authReplies turn.history = [fetch.reply])
    (hafter : turn.after = fetch.token.toOption) (hresult : turn.result = (fetch.token.map some).mapError c.refused) :
    turn.Comes c := by
  rcases htoken : fetch.token with reason | token <;> rw [htoken] at hafter hresult
  · exact .failed fetch.reply reason hasks hreplies htoken hresult hafter
  · exact .got fetch.reply token hasks hreplies htoken hresult hafter

theorem Taken.comes (h : turn.Taken c) : turn.Comes c := by
  obtain ⟨action, before, history, result, after⟩ := turn
  obtain ⟨hyields, hserved⟩ := h
  dsimp only at hyields hserved
  cases action with
  | current =>
    obtain ⟨o, rest, rfl, hrest⟩ := yields_currentToken_bind_iff.mp hyields
    obtain ⟨rfl, hresult⟩ := handed_of_cases hrest
    obtain ⟨hbefore, hafter⟩ := Opening.served_iff.mp hserved
    rw [served_nil_iff] at hafter
    rcases o with token | fetch
    · exact .held token rfl hbefore rfl hresult hafter
    · refine .of_fetch fetch (.inr ⟨rfl, hbefore⟩) ?_ hafter hresult
      rw [List.append_nil]
      exact Fetch.authReplies_history c fetch
  | fetch =>
    obtain ⟨fetch, rest, rfl, hrest⟩ := yields_fetchToken_bind_iff.mp hyields
    obtain ⟨rfl, hresult⟩ := handed_of_cases hrest
    rw [Fetch.served_iff, served_nil_iff] at hserved
    refine .of_fetch fetch (.inl rfl) ?_ hserved hresult
    rw [List.append_nil]
    exact Fetch.authReplies_history c fetch
  | drop =>
    obtain ⟨⟨⟩, rest, rfl, hrest⟩ := Exchange.yields_step_bind_iff.mp hyields
    obtain ⟨rfl, rfl⟩ := Attempt.yields_pure_iff.mp hrest
    obtain ⟨_, rfl, hnil⟩ := served_cons_iff.mp hserved
    exact .dropped rfl rfl rfl (served_nil_iff.mp hnil)

end Turn

/-! ## One action after the other -/

inductive Turns (c : ProviderClient) : Option String → List Turn → Option String → Prop
  | nil (slot : Option String) : Turns c slot [] slot
  | cons {turn : Turn} {turns : List Turn} {slot : Option String} (h : turn.Taken c)
      (rest : Turns c turn.after turns slot) : Turns c turn.before (turn :: turns) slot

/-- What bears on the slot. -/
inductive SlotEvent where
  /-- The reply to a request for a token. -/
  | replied (reply : Except String Reply)
  | dropped

/-- What the slot holds after the event. -/
def SlotEvent.leaves : SlotEvent → Option String
  | replied reply => (tokenOfReply reply).toOption
  | dropped => none

def Turn.events (turn : Turn) : List SlotEvent :=
  if turn.action = .drop then [.dropped] else (authReplies turn.history).map .replied

section
variable {c : ProviderClient} {turn : Turn} {turns : List Turn} {slot slot' : Option String}

theorem Turn.Asks.ne_drop (h : turn.Asks) : turn.action ≠ .drop := by
  obtain h | ⟨h, -⟩ := h <;> rw [h] <;> nofun

theorem Turn.events_of_asks {reply : Except String Reply} (hasks : turn.Asks)
    (hreplies : authReplies turn.history = [reply]) : turn.events = [.replied reply] := by
  rw [Turn.events, if_neg hasks.ne_drop, hreplies, List.map_singleton]

theorem Turn.Comes.after_eq (h : turn.Comes c) : turn.after = turn.events.foldl (fun _ e => e.leaves) turn.before := by
  cases h with
  | held token haction hbefore hhistory hresult hafter =>
    rw [Turn.events, haction, hhistory, hafter, hbefore]
    rfl
  | got reply token hasks hreplies htoken hresult hafter =>
    rw [Turn.events_of_asks hasks hreplies, List.foldl_cons, SlotEvent.leaves, htoken, hafter]
    rfl
  | failed reply reason hasks hreplies htoken hresult hafter =>
    rw [Turn.events_of_asks hasks hreplies, List.foldl_cons, SlotEvent.leaves, htoken, hafter]
    rfl
  | dropped haction hreplies hresult hafter =>
    rw [Turn.events, if_pos haction, hafter]
    rfl

theorem Turn.Comes.length_authReplies (h : turn.Comes c) :
    (authReplies turn.history).length =
      [turn].countP (·.action = .fetch) + [turn].countP (fun turn => turn.action = .current ∧ turn.before = none) := by
  have hasked (hasks : turn.Asks) : 1 =
      [turn].countP (·.action = .fetch) + [turn].countP (fun turn => turn.action = .current ∧ turn.before = none) := by
    obtain haction | ⟨haction, hbefore⟩ := hasks
    · simp [haction]
    · simp [haction, hbefore]
  cases h with
  | held token haction hbefore hhistory hresult hafter =>
    rw [hhistory]
    simp [authReplies, Exchange.authReply?, haction, hbefore]
  | got reply token hasks hreplies htoken hresult hafter => rw [hreplies, ← hasked hasks, List.length_singleton]
  | failed reply reason hasks hreplies htoken hresult hafter => rw [hreplies, ← hasked hasks, List.length_singleton]
  | dropped haction hreplies hresult hafter => simp [hreplies, haction]

theorem Turns.comes (h : Turns c slot turns slot') : ∀ turn ∈ turns, turn.Comes c := by
  induction h with
  | nil slot => nofun
  | cons h rest ih => exact List.forall_mem_cons.mpr ⟨h.comes, ih⟩

/-- The events of all actions decide what the slot holds. -/
theorem Turns.slot_eq (h : Turns c slot turns slot') :
    slot' = (turns.flatMap Turn.events).foldl (fun _ e => e.leaves) slot := by
  induction h with
  | nil slot => rfl
  | cons h rest ih => rw [ih, List.flatMap_cons, List.foldl_append, h.comes.after_eq]

theorem Turns.length_authReplies (h : Turns c slot turns slot') :
    (turns.flatMap fun turn => authReplies turn.history).length =
      turns.countP (·.action = .fetch) + turns.countP (fun turn => turn.action = .current ∧ turn.before = none) := by
  induction h with
  | nil slot => rfl
  | @cons turn turns slot h rest ih =>
    have hcons (p : Turn → Bool) : (turn :: turns).countP p = [turn].countP p + turns.countP p := by
      rw [← List.countP_append, List.singleton_append]
    rw [List.flatMap_cons, List.length_append, ih, h.comes.length_authReplies, hcons, hcons]
    omega

theorem foldl_leaves_eq_some_iff {events : List SlotEvent} {token : String} :
    events.foldl (fun _ e => e.leaves) slot = some token ↔
      (∃ earlier reply, events = earlier ++ [.replied reply] ∧ Brings token reply) ∨
        events = [] ∧ slot = some token := by
  obtain rfl | ⟨earlier, last, rfl⟩ := List.eq_nil_or_concat events
  · simp
  have hleaves : last.leaves = some token ↔ ∃ reply, last = .replied reply ∧ Brings token reply := by
    cases last with
    | replied reply =>
      simp only [SlotEvent.leaves, SlotEvent.replied.injEq, exists_eq_left', ← tokenOfReply_eq_ok_iff]
      rcases tokenOfReply reply with reason | found <;> simp [Except.toOption]
    | dropped => simp [SlotEvent.leaves]
  rw [List.concat_eq_append, List.foldl_append, List.foldl_cons, List.foldl_nil, hleaves]
  constructor
  · rintro ⟨reply, rfl, hbrings⟩
    exact .inl ⟨earlier, reply, rfl, hbrings⟩
  · rintro (⟨earlier', reply, hevents, hbrings⟩ | ⟨hnil, -⟩)
    · exact ⟨reply, List.singleton_inj.mp (List.append_inj' hevents rfl).2, hbrings⟩
    · cases List.append_ne_nil_of_right_ne_nil _ (List.cons_ne_nil _ _) hnil

/-! ## Actions that are answered -/

/-- The requests for tokens get the replies of a sequence, one after the other. -/
def KeeperServes (replies : Nat → Except String Reply) (state : Option String × Nat) (entry : Exchange.Entry)
    (state' : Option String × Nat) : Prop :=
  SlotServes state.1 entry state'.1 ∧
    match entry with
    | ⟨.authenticate _, reply⟩ => reply = replies state.2 ∧ state'.2 = state.2 + 1
    | _ => state'.2 = state.2

theorem exists_keeperServes (replies : Nat → Except String Reply) (state : Option String × Nat)
    (q : Exchange.Question) : ∃ answer state', KeeperServes replies state ⟨q, answer⟩ state' := by
  obtain ⟨answer, slot', hslot⟩ := exists_slotServes state.1 q
  cases q with
  | authenticate request => exact ⟨replies state.2, (state.1, state.2 + 1), rfl, rfl, rfl⟩
  | _ => exact ⟨answer, (slot', state.2), hslot, rfl⟩

theorem slot_of_keeperServes {replies : Nat → Except String Reply} {state state' : Option String × Nat}
    {history : Exchange.History} (h : Served (KeeperServes replies) state history state') :
    Served SlotServes state.1 history state'.1 := by
  induction h with
  | nil state => exact .nil _
  | cons h rest ih => exact .cons h.1 ih

theorem authReplies_of_keeperServes {replies : Nat → Except String Reply} {state state' : Option String × Nat}
    {history : Exchange.History} (h : Served (KeeperServes replies) state history state') :
    ∃ k, state'.2 = state.2 + k ∧ authReplies history = (List.range' state.2 k).map replies := by
  induction h with
  | nil state => exact ⟨0, rfl, rfl⟩
  | @cons state next state' entry history h rest ih =>
    obtain ⟨k, hstate, hreplies⟩ := ih
    obtain ⟨-, hentry⟩ := h
    obtain ⟨q, answer⟩ := entry
    cases q with
    | authenticate request =>
      obtain ⟨rfl, hnext⟩ := hentry
      rw [hnext] at hstate hreplies
      refine ⟨k + 1, by omega, ?_⟩
      rw [List.range'_succ, List.map_cons, ← hreplies]
      rfl
    | _ =>
      rw [hentry] at hstate hreplies
      exact ⟨k, hstate, hreplies⟩

/-- Whatever the replies to requests for tokens are bound to be, the actions come to their end. -/
theorem exists_turns (c : ProviderClient) (actions : List TokenAction) (replies : Nat → Except String Reply)
    (slot : Option String) (first : Nat) :
    ∃ turns slot' k, Turns c slot turns slot' ∧ turns.map (·.action) = actions ∧
      (turns.flatMap fun turn => authReplies turn.history) = (List.range' first k).map replies := by
  induction actions generalizing slot first with
  | nil => exact ⟨[], slot, 0, .nil slot, rfl, rfl⟩
  | cons action actions ih =>
    obtain ⟨history, result, ⟨next, first'⟩, hyields, hserved⟩ :=
      Program.exists_served (exists_keeperServes replies) (action.exchange c).run (slot, first)
    obtain ⟨k, hfirst, hreplies⟩ := authReplies_of_keeperServes hserved
    dsimp only at hfirst hreplies
    obtain ⟨turns, slot', k', hturns, rfl, hrest⟩ := ih next first'
    let turn : Turn := ⟨action, slot, history, result, next⟩
    have htaken : turn.Taken c := ⟨hyields, slot_of_keeperServes hserved⟩
    refine ⟨turn :: turns, slot', k + k', .cons htaken hturns, rfl, ?_⟩
    rw [List.flatMap_cons, hreplies, hrest, hfirst, ← List.map_append, List.range'_append_1]

end

/-- **The slot holds the last token that came, unless it was dropped since.** Any actions can be taken one after the
other from any slot, with any replies to the requests for tokens. The slot holds a token at the end if and only if the
last event is a reply that brings this token, or if there is no event and it was there before. The requests for tokens
are as many as the fetches and the takings from an empty slot. A token that is in the slot is handed out with nothing
asked of the provider. A request whose reply brings no token fails the action, for want of authentication, and leaves
the slot empty, whatever it held. -/
theorem slot_traced (c : ProviderClient) (slot : Option String) :
    (∀ actions (replies : Nat → Except String Reply), ∃ turns slot' k, Turns c slot turns slot' ∧
      turns.map (·.action) = actions ∧
        (turns.flatMap fun turn => authReplies turn.history) = (List.range k).map replies) ∧
    ∀ turns slot', Turns c slot turns slot' →
      (∀ token, slot' = some token ↔
        (∃ earlier reply, turns.flatMap Turn.events = earlier ++ [.replied reply] ∧ Brings token reply) ∨
          turns.flatMap Turn.events = [] ∧ slot = some token) ∧
      (turns.flatMap fun turn => authReplies turn.history).length =
        turns.countP (·.action = .fetch) + turns.countP (fun turn => turn.action = .current ∧ turn.before = none) ∧
      (∀ turn ∈ turns, turn.action = .current → ∀ token, turn.before = some token →
        turn.history = [⟨.readSlot, some token⟩] ∧ turn.result = .ok (some token) ∧ turn.after = some token) ∧
      ∀ turn ∈ turns, ∀ reply ∈ authReplies turn.history,
        (∀ token, Brings token reply → turn.result = .ok (some token) ∧ turn.after = some token) ∧
          ((∀ token, ¬ Brings token reply) →
            ∃ reason, turn.result = .error (.authentication c.method reason) ∧ turn.after = none) := by
  refine ⟨fun actions replies => ?_, fun turns slot' h => ⟨fun token => ?_, h.length_authReplies, ?_, ?_⟩⟩
  · obtain ⟨turns, slot', k, h, hactions, hreplies⟩ := exists_turns c actions replies slot 0
    exact ⟨turns, slot', k, h, hactions, by rw [hreplies, List.range_eq_range']⟩
  · rw [h.slot_eq, foldl_leaves_eq_some_iff]
  · intro turn hturn haction token hbefore
    cases h.comes turn hturn with
    | held token' _ hbefore' hhistory hresult hafter =>
      obtain rfl : token' = token := Option.some.inj (hbefore'.symm.trans hbefore)
      exact ⟨hhistory, hresult, hafter⟩
    | got reply token' hasks | failed reply reason hasks =>
      obtain haction' | ⟨-, hnone⟩ := hasks
      · cases haction'.symm.trans haction
      · cases hnone.symm.trans hbefore
    | dropped haction' => cases haction'.symm.trans haction
  · intro turn hturn reply hreply
    cases h.comes turn hturn with
    | held token haction hbefore hhistory hresult hafter =>
      rw [hhistory] at hreply
      cases hreply
    | got reply' token hasks hreplies htoken hresult hafter =>
      rw [hreplies, List.mem_singleton] at hreply
      subst hreply
      refine ⟨fun token' hbrings => ?_, fun hnone => absurd (tokenOfReply_eq_ok_iff.mp htoken) (hnone token)⟩
      cases (tokenOfReply_eq_ok_iff.mpr hbrings).symm.trans htoken
      exact ⟨hresult, hafter⟩
    | failed reply' reason hasks hreplies htoken hresult hafter =>
      rw [hreplies, List.mem_singleton] at hreply
      subst hreply
      refine ⟨fun token hbrings => ?_, fun _ => ⟨reason, hresult, hafter⟩⟩
      cases (tokenOfReply_eq_ok_iff.mpr hbrings).symm.trans htoken
    | dropped haction hreplies hresult hafter =>
      rw [hreplies] at hreply
      cases hreply

end WalletTopUp.ProviderClient
