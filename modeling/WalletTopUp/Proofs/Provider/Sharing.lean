import WalletTopUp.Proofs.Provider.Slot
import WalletTopUp.Proofs.Underway

/-!
# Requests that share a slot

Requests to a provider that run at once read, fill and clear one slot, and any of them may do so between two steps of
another: nobody locks it. What holds nevertheless comes from the history of each request alone. A token goes into the
slot only after a reply has brought it, a request is sent only with a token that was read or brought, and after a
refusal only with the token that was brought since (`Grounded`). Merged over one slot that starts empty, these facts
say where every token comes from (`send_shared`).
-/

namespace WalletTopUp.ProviderClient
open Exchange (apiReplies authReplies)

section
variable {c : ProviderClient} {errand : Errand} {token : String} {left : Nat}
  {past first rest history : Exchange.History} {halt : Halt} {r : Except ProviderFault Response}

/-! ## The history of one request -/

variable (c) in
/-- If the last request was refused, all that has happened since is that the token was dropped and this one fetched. -/
def Renews (past : Exchange.History) (token : String) : Prop :=
  ∀ before call reply between, past = before ++ ⟨.call call, .ok reply⟩ :: between →
    c.isRefusal reply = true → apiReplies between = [] →
      ∃ fetch : Fetch, fetch.token = .ok token ∧ between = c.renewing ++ fetch.history c

variable (c) in
/-- What must have happened before an entry of a request. -/
def Grounded (past : Exchange.History) (entry : Exchange.Entry) : Prop :=
  match entry with
  | ⟨.fillSlot token, _⟩ => ∃ reply ∈ authReplies past, tokenOfReply reply = .ok token
  | ⟨.call call, _⟩ => Obtained past call.token ∧ c.Renews past call.token
  | _ => True

variable (c) in
/-- Every entry of a history that follows on the entries `past` is grounded. -/
def Grounds : (past : Exchange.History) → Exchange.History → Prop
  | _, [] => True
  | past, entry :: rest => c.Grounded past entry ∧ Grounds (past ++ [entry]) rest

theorem grounds_append_iff :
    c.Grounds past (first ++ rest) ↔ c.Grounds past first ∧ c.Grounds (past ++ first) rest := by
  induction first generalizing past with
  | nil => simp [Grounds]
  | cons entry first ih => simp only [List.cons_append, Grounds, ih, List.append_assoc, List.nil_append, and_assoc]

theorem Grounds.grounded {entry : Exchange.Entry} (h : c.Grounds past (first ++ entry :: rest)) :
    c.Grounded (past ++ first) entry :=
  (grounds_append_iff.mp h).2.1

theorem Obtained.append (h : Obtained past token) (rest : Exchange.History) : Obtained (past ++ rest) token := by
  rcases h with hread | ⟨reply, hmem, htoken⟩
  · exact .inl (List.mem_append_left _ hread)
  · refine .inr ⟨reply, ?_, htoken⟩
    rw [Exchange.authReplies_append]
    exact List.mem_append_left _ hmem

theorem append_call_inj {first' rest' : Exchange.History} {call call' : ApiRequest}
    {answer answer' : Except String Reply}
    (h : first ++ ⟨.call call, answer⟩ :: rest = first' ++ ⟨.call call', answer'⟩ :: rest')
    (hrest : apiReplies rest = []) (hrest' : apiReplies rest' = []) : answer = answer' ∧ rest = rest' := by
  have hmem : ∀ {call answer} {history : Exchange.History}, apiReplies history = [] →
      ⟨.call call, answer⟩ ∉ history := by
    intro call answer history hnone hcall
    have hreply := Exchange.mem_apiReplies hcall
    rw [hnone] at hreply
    cases hreply
  rcases List.append_eq_append_iff.mp h with ⟨between, -, htail⟩ | ⟨between, -, htail⟩
  · rcases between with _ | ⟨entry, between⟩
    · cases htail
      exact ⟨rfl, rfl⟩
    · obtain ⟨-, rfl⟩ := List.cons.inj htail
      exact absurd (List.mem_append_right _ List.mem_cons_self) (hmem hrest)
  · rcases between with _ | ⟨entry, between⟩
    · cases htail
      exact ⟨rfl, rfl⟩
    · obtain ⟨-, rfl⟩ := List.cons.inj htail
      exact absurd (List.mem_append_right _ List.mem_cons_self) (hmem hrest')

/-! ### The pieces -/

theorem renews_of_no_call (h : apiReplies past = []) : c.Renews past token := by
  rintro before call reply between rfl - -
  simp [apiReplies, Exchange.apiReply?] at h

theorem renews_of_survived {call : ApiRequest} {reply : Reply} (hsurvived : ¬ c.isRefusal reply = true)
    (hrest : apiReplies rest = []) : c.Renews (past ++ ⟨.call call, .ok reply⟩ :: rest) token := by
  intro before call' reply' between heq hrefused hbetween
  obtain ⟨hreply, -⟩ := append_call_inj heq hrest hbetween
  cases hreply
  exact absurd hrefused hsurvived

theorem grounds_waiting {drawn : Fin 1000} : c.Grounds past (c.waiting left drawn) := by
  unfold waiting pausing
  split_ifs <;> simp [Grounds, Grounded]

theorem grounds_renewing : c.Grounds past c.renewing := by
  simp [renewing, Grounds, Grounded]

theorem Fetch.grounds (fetch : Fetch) : c.Grounds past (fetch.history c) := by
  unfold Fetch.history
  rcases htoken : fetch.token with reason | token
  · simp [keeping, Grounds, Grounded]
  · have hreply : ∃ reply ∈ authReplies (past ++ [⟨.now, fetch.now⟩] ++ [⟨.fresh, fetch.id⟩] ++
        [⟨.authenticate ⟨c.base ++ c.authPath, c.authBody fetch.now, fetch.id.text⟩, fetch.reply⟩]),
          tokenOfReply reply = .ok token := by
      refine ⟨fetch.reply, ?_, htoken⟩
      rw [Exchange.authReplies_append]
      exact List.mem_append_right _ (List.mem_singleton_self _)
    exact ⟨trivial, trivial, trivial, hreply, trivial, trivial⟩

theorem Opening.grounds (o : Opening) : c.Grounds past (o.history c) := by
  rcases o with held | fetch
  · exact ⟨trivial, trivial⟩
  · exact ⟨trivial, fetch.grounds⟩

/-- With a token that was had, and fetched if the last one was refused, the attempts can be made. -/
theorem Round.grounds (h : c.Round errand token left history halt) (hobtained : Obtained past token)
    (hrenews : c.Renews past token) : c.Grounds past history := by
  induction h generalizing past with
  | unsendable => trivial
  | @forgiven left htoken reply hserver drawn rest halt hrest ih =>
    refine ⟨⟨hobtained, hrenews⟩, grounds_append_iff.mpr ⟨grounds_waiting, ?_⟩⟩
    rw [List.append_assoc]
    exact ih (hobtained.append _)
      (renews_of_survived (not_refusal_of_serverError hserver) (c.apiReplies_waiting left drawn))
  | _ => exact ⟨⟨hobtained, hrenews⟩, trivial⟩

theorem Round.grounds_renewed {left' status : Nat} (h : c.Round errand token left first (.refused left' status))
    {fetch : Fetch} {token' : String} (hfetch : fetch.token = .ok token')
    (h' : c.Round errand token' left' history halt) :
    c.Grounds (past ++ first) (c.renewing ++ (fetch.history c ++ history)) := by
  refine grounds_append_iff.mpr ⟨grounds_renewing, grounds_append_iff.mpr ⟨fetch.grounds, h'.grounds ?_ ?_⟩⟩
  · exact .inr ⟨fetch.reply, by simp, hfetch⟩
  · obtain ⟨-, -, ⟨⟩⟩ | ⟨before, answer, rfl⟩ := h.eq_append
    intro before' call reply between heq hrefused hbetween
    simp only [List.append_assoc, List.cons_append, List.nil_append] at heq
    rw [← List.append_assoc] at heq
    obtain ⟨-, rfl⟩ := append_call_inj heq (by simp) hbetween
    exact ⟨fetch, hfetch, rfl⟩

theorem Sent.grounds (h : c.Sent errand history r) : c.Grounds [] history := by
  have hround : ∀ {o : Opening} {token : String} {history : Exchange.History} {halt : Halt}, o.token = .ok token →
      c.Round errand token c.retry.maxRetries history halt → c.Grounds [] (o.history c ++ history) := by
    intro o token history halt ho hround
    have hobtained : Obtained (o.history c ++ []) token := Opening.obtained ho []
    rw [List.append_nil] at hobtained
    have hrenews : c.Renews (o.history c) token := renews_of_no_call (Opening.apiReplies_history c o)
    exact grounds_append_iff.mpr ⟨o.grounds, hround.grounds hobtained hrenews⟩
  cases h with
  | unopened o ho => exact o.grounds
  | settled o ho hfirst => exact hround ho hfirst
  | unrenewed o ho hfirst fetch hfetch =>
    rw [← List.append_assoc]
    exact grounds_append_iff.mpr ⟨hround ho hfirst, grounds_append_iff.mpr ⟨grounds_renewing, fetch.grounds⟩⟩
  | renewed o ho hfirst fetch hfetch hsecond =>
    rw [← List.append_assoc]
    exact grounds_append_iff.mpr ⟨hround ho hfirst, hfirst.grounds_renewed hfetch hsecond⟩
  | @refused o token ho history left status hfirst fetch token' hfetch history' left' status' hsecond =>
    have hgrounds := grounds_append_iff.mpr ⟨hround ho hfirst, hfirst.grounds_renewed hfetch hsecond⟩
    have hlast : c.Grounds [] ((o.history c ++ history ++ (c.renewing ++ (fetch.history c ++ history'))) ++
        [⟨.clearSlot, ()⟩]) := grounds_append_iff.mpr ⟨hgrounds, trivial, trivial⟩
    simpa only [List.append_assoc] using hlast

end

/-! ## All requests -/

/-- A reply to one of the requests for tokens has delivered the token. -/
def Delivered {ι : Type} (log : List (ι × Exchange.Entry)) (token : String) : Prop :=
  ∃ i request reply, (i, ⟨.authenticate request, .ok reply⟩) ∈ log ∧ tokenOfReply (.ok reply) = .ok token

def isCall : Exchange.Question → Bool
  | .call _ => true
  | _ => false

def isAuthenticate : Exchange.Question → Bool
  | .authenticate _ => true
  | _ => false

/-- What is known of requests that share a slot, wherever they stand. -/
structure Shared {ι : Type} [DecidableEq ι] (c : ι → ProviderClient) (log : List (ι × Exchange.Entry))
    (left : ι → Program Exchange (Except ProviderFault Response)) (slot : Option String) : Prop where
  held : ∀ token, slot = some token → Delivered log token
  carried : ∀ i before call, Asks log left i before (.call call) → Delivered before call.token
  calls_le : ∀ i, (asked i log left).countP isCall ≤ (c i).retry.maxRetries + 2
  fetches_le : ∀ i, (asked i log left).countP isAuthenticate ≤ 2
  /-- After a refusal the next request has the token of the only reply since, and the slot has not been read. -/
  renewed : ∀ i before call, Asks log left i before (.call call) →
    ∀ past refused reply between, entriesOf i before = past ++ ⟨.call refused, .ok reply⟩ :: between →
      (c i).isRefusal reply = true → apiReplies between = [] →
        ∃ delivery, authReplies between = [.ok delivery] ∧ tokenOfReply (.ok delivery) = .ok call.token ∧
          ∀ token, ⟨.readSlot, token⟩ ∉ between

theorem exists_ok_of_tokenOfReply {reply : Except String Reply} {token : String}
    (h : tokenOfReply reply = .ok token) : ∃ delivery, reply = .ok delivery := by
  rcases reply with reason | delivery
  · cases h
  · exact ⟨delivery, rfl⟩

theorem countP_questions {β : Type} {isKind : Exchange.Question → Bool} {answer? : Exchange.Entry → Option β}
    (h : ∀ entry, isKind entry.1 = (answer? entry).isSome) (history : Exchange.History) :
    (history.map (·.1)).countP isKind = (history.filterMap answer?).length := by
  rw [List.length_filterMap_eq_countP, List.countP_map]
  exact List.countP_congr fun entry _ => by rw [Function.comp_apply, h]

theorem countP_isCall (history : Exchange.History) :
    (history.map (·.1)).countP isCall = (apiReplies history).length :=
  countP_questions (fun ⟨question, _⟩ => by cases question <;> rfl) history

theorem countP_isAuthenticate (history : Exchange.History) :
    (history.map (·.1)).countP isAuthenticate = (authReplies history).length :=
  countP_questions (fun ⟨question, _⟩ => by cases question <;> rfl) history

theorem exists_slotServes (slot : Option String) (q : Exchange.Question) :
    ∃ answer slot', SlotServes slot ⟨q, answer⟩ slot' := by
  cases q with
  | readSlot => exact ⟨slot, slot, rfl, rfl⟩
  | fillSlot token => exact ⟨(), some token, rfl⟩
  | clearSlot => exact ⟨(), none, rfl⟩
  | authenticate request => exact ⟨.error "", slot, rfl⟩
  | call request => exact ⟨.error "", slot, rfl⟩
  | draw => exact ⟨0, slot, rfl⟩
  | now => exact ⟨.epoch, slot, rfl⟩
  | fresh => exact ⟨default, slot, rfl⟩
  | _ => exact ⟨(), slot, rfl⟩

theorem filled_of_served {slot slot' : Option String} {history : Exchange.History} {token : String}
    (h : Served SlotServes slot history slot') (hslot : slot' = some token) :
    slot = some token ∨ ⟨.fillSlot token, ()⟩ ∈ history := by
  induction h with
  | nil slot => exact .inl hslot
  | @cons slot slot' _ entry history hserves hrest ih =>
    rcases ih hslot with hheld | hmem
    · obtain ⟨question, answer⟩ := entry
      cases question with
      | readSlot => exact .inl (hserves.2 ▸ hheld)
      | fillSlot filled =>
        have hfilled : slot' = some filled := hserves
        rw [hheld] at hfilled
        cases hfilled
        exact .inr List.mem_cons_self
      | clearSlot =>
        have hclear : slot' = none := hserves
        rw [hheld] at hclear
        cases hclear
      | _ => exact .inl ((show slot' = slot from hserves) ▸ hheld)
    · exact .inr (List.mem_cons_of_mem _ hmem)

section
variable {ι : Type} [DecidableEq ι] {c : ι → ProviderClient} {errand : ι → Errand}
  {log before after : List (ι × Exchange.Entry)}
  {left : ι → Program Exchange (Except ProviderFault Response)} {slot : Option String} {token : String} {i : ι}

omit [DecidableEq ι] in
theorem Delivered.append (h : Delivered before token) (after : List (ι × Exchange.Entry)) :
    Delivered (before ++ after) token := by
  obtain ⟨i, request, reply, hmem, htoken⟩ := h
  exact ⟨i, request, reply, List.mem_append_left _ hmem, htoken⟩

theorem Delivered.of_authReply {reply : Except String Reply} (hmem : reply ∈ authReplies (entriesOf i log))
    (htoken : tokenOfReply reply = .ok token) : Delivered log token := by
  obtain ⟨delivery, rfl⟩ := exists_ok_of_tokenOfReply htoken
  obtain ⟨⟨question, answer⟩, hentry, hreply⟩ := List.mem_filterMap.mp hmem
  cases question <;> cases hreply
  exact ⟨i, _, delivery, mem_entriesOf.mp hentry, htoken⟩

/-- Entries of a request that is underway have behind them what its whole history puts behind them. -/
theorem grounded_of_underway
    (h : Underway SlotServes (fun i => ((c i).send (errand i)).run) none log left slot) {entry : Exchange.Entry}
    (hlog : log = before ++ (i, entry) :: after) : (c i).Grounded (entriesOf i before) entry := by
  obtain ⟨rest, r, hyields⟩ := (h.reaches i).exists_yields fun _ q => (exists_slotServes none q).choose
  have hgrounds : (c i).Grounds [] (entriesOf i log ++ rest) := (sent_of_yields hyields).grounds
  rw [hlog, entriesOf_append, entriesOf_cons_self, List.append_assoc] at hgrounds
  exact hgrounds.grounded

theorem delivered_of_held
    (hgrounded : ∀ before after i entry, log = before ++ (i, entry) :: after →
      (c i).Grounded (entriesOf i before) entry)
    (hlog : log = before ++ after) (hserved : Served SlotServes none (before.map (·.2)) (some token)) :
    Delivered before token := by
  obtain hnone | hmem := filled_of_served hserved rfl
  · cases hnone
  obtain ⟨⟨i, entry⟩, hentry, rfl⟩ := List.mem_map.mp hmem
  obtain ⟨first, rest, rfl⟩ := List.append_of_mem hentry
  obtain ⟨reply, hreply, htoken⟩ := hgrounded first (rest ++ after) i _
    (by rw [hlog, List.append_assoc, List.cons_append])
  exact (Delivered.of_authReply hreply htoken).append _

/-- What a request has had has been delivered, to itself or to another one that has put it into the slot. -/
theorem delivered_of_obtained
    (hgrounded : ∀ before after i entry, log = before ++ (i, entry) :: after →
      (c i).Grounded (entriesOf i before) entry)
    (hlog : log = before ++ after) (hserved : Served SlotServes none (before.map (·.2)) slot)
    (hobtained : Obtained (entriesOf i before) token) : Delivered before token := by
  obtain hread | ⟨reply, hmem, htoken⟩ := hobtained
  · obtain ⟨first, rest, rfl⟩ := List.append_of_mem (mem_entriesOf.mp hread)
    rw [List.map_append, List.map_cons, served_append_iff] at hserved
    obtain ⟨held, hfirst, hrest⟩ := hserved
    obtain ⟨_, ⟨rfl, rfl⟩, -⟩ := served_cons_iff.mp hrest
    exact (delivered_of_held hgrounded (hlog.trans (List.append_assoc _ _ _)) hfirst).append _
  · exact .of_authReply hmem htoken

/-- **Requests that share a slot.** However many there are and however far each of them has got, every token in the
slot and in a request was delivered by a reply, and nobody goes on with a token that it has seen refused. -/
theorem send_shared (c : ι → ProviderClient) (errand : ι → Errand)
    (h : Underway SlotServes (fun i => ((c i).send (errand i)).run) none log left slot) : Shared c log left slot := by
  have hgrounded : ∀ {log left slot}, Underway SlotServes (fun i => ((c i).send (errand i)).run) none log left slot →
      ∀ before after i entry, log = before ++ (i, entry) :: after → (c i).Grounded (entriesOf i before) entry :=
    fun h before after i entry hlog => grounded_of_underway h hlog
  refine ⟨fun token hslot => ?_, fun i before call hasks => ?_, fun i => ?_, fun i => ?_, fun i before call hasks => ?_⟩
  · subst hslot
    exact delivered_of_held (hgrounded h) (List.append_nil log).symm h.served
  · obtain ⟨more, left', slot', h', -, hall⟩ := h.exists_answer exists_slotServes i
    obtain ⟨answer, after, hlog⟩ := hall before _ hasks
    have hserved : Served SlotServes none ((log ++ more).map (·.2)) slot' := h'.served
    rw [hlog, List.map_append, served_append_iff] at hserved
    obtain ⟨slot'', hbefore, -⟩ := hserved
    have hcall : (c i).Grounded (entriesOf i before) ⟨.call call, answer⟩ := hgrounded h' _ _ _ _ hlog
    exact delivered_of_obtained (hgrounded h') hlog hbefore hcall.1
  · obtain ⟨more, left', slot', h', hasked, -⟩ := h.exists_answer exists_slotServes i
    obtain ⟨rest, r, hyields⟩ := (h'.reaches i).exists_yields fun _ q => (exists_slotServes none q).choose
    have hle := (sent_of_yields hyields).decided.calls_le
    rw [Exchange.apiReplies_append, List.length_append] at hle
    rw [hasked, countP_isCall]
    omega
  · obtain ⟨more, left', slot', h', hasked, -⟩ := h.exists_answer exists_slotServes i
    obtain ⟨rest, r, hyields⟩ := (h'.reaches i).exists_yields fun _ q => (exists_slotServes none q).choose
    have hle := (sent_of_yields hyields).decided.fetches_le
    rw [Exchange.authReplies_append, List.length_append] at hle
    rw [hasked, countP_isAuthenticate]
    omega
  · obtain ⟨more, left', slot', h', -, hall⟩ := h.exists_answer exists_slotServes i
    obtain ⟨answer, after, hlog⟩ := hall before _ hasks
    intro past refused reply between hpast hrefused hbetween
    have hcall : (c i).Grounded (entriesOf i before) ⟨.call call, answer⟩ := hgrounded h' _ _ _ _ hlog
    obtain ⟨fetch, hfetch, rfl⟩ := hcall.2 past refused reply between hpast hrefused hbetween
    obtain ⟨delivery, hdelivery⟩ := exists_ok_of_tokenOfReply hfetch
    refine ⟨delivery, by simp [hdelivery], by rw [← hdelivery, ← hfetch, Fetch.token], ?_⟩
    intro token hread
    unfold renewing Fetch.history at hread
    rw [hfetch] at hread
    simp [Fetch.keeping] at hread

end

/-! ## A token that is dropped under a request -/

namespace Sample

/-- One request fetches the token "old", with which the other one is refused while the first is still underway. -/
def firstFetch : Fetch := ⟨.epoch, default, .ok ⟨200, .ok (Text.bytes "\x7b\"token\":\"old\"\x7d")⟩⟩

theorem firstFetch_token : firstFetch.token = .ok "old" := by decide +kernel

def firstCall : Exchange.Entry := ⟨.call (client.request errand "old"), .ok ⟨200, .ok []⟩⟩

/-- The first entries of the request whose token is refused. -/
def untilRefused : Exchange.History :=
  (Opening.held "old").history client ++ [⟨.call (client.request errand "old"), .ok ⟨401, .ok []⟩⟩]

def afterRefused : Exchange.History :=
  client.renewing ++ (fetch.history client ++ [⟨.call (client.request errand "new"), .ok ⟨200, .ok []⟩⟩])

def log : List (Bool × Exchange.Entry) :=
  ((Opening.fetched firstFetch).history client).map (false, ·) ++ (untilRefused.map (true, ·) ++
    ([firstCall].map (false, ·) ++ afterRefused.map (true, ·)))

theorem firstSent :
    client.Sent errand ((Opening.fetched firstFetch).history client ++ [firstCall]) (.ok ⟨200, ""⟩) := by
  have hold : headerBytes? "old" ≠ none := by decide +kernel
  have hresponse : client.responseOf ⟨200, .ok []⟩ = .ok ⟨200, ""⟩ := by decide +kernel
  rw [← hresponse]
  exact .settled (.fetched firstFetch) firstFetch_token (.answered _ hold ⟨200, .ok []⟩ rfl rfl)

theorem entriesOf_false : entriesOf false log = (Opening.fetched firstFetch).history client ++ [firstCall] := by
  unfold log
  rw [entriesOf_append, entriesOf_append, entriesOf_append, entriesOf_map_self, entriesOf_map_self,
    entriesOf_map_of_ne _ (by decide), entriesOf_map_of_ne _ (by decide), List.nil_append, List.append_nil]

theorem entriesOf_true : entriesOf true log = history := by
  unfold log
  rw [entriesOf_append, entriesOf_append, entriesOf_append, entriesOf_map_self, entriesOf_map_self,
    entriesOf_map_of_ne _ (by decide), entriesOf_map_of_ne _ (by decide), List.nil_append, List.nil_append]
  exact List.append_assoc _ _ _

theorem underway : Underway SlotServes (fun _ : Bool => (client.send errand).run) none log
    (fun _ => .finish (.ok ⟨200, ""⟩)) (some "new") where
  reaches i := by
    cases i with
    | false => exact entriesOf_false ▸ firstSent.yields.reaches
    | true => exact entriesOf_true ▸ sent.yields.reaches
  served := by
    have hsnd : ∀ (i : Bool) (entries : Exchange.History), (entries.map (i, ·)).map (·.2) = entries := by simp
    unfold log untilRefused afterRefused
    simp only [List.map_append, hsnd]
    rw [Opening.served_iff]
    refine ⟨rfl, ?_⟩
    rw [show (Opening.fetched firstFetch).token = .ok "old" from firstFetch_token, List.append_assoc,
      Opening.served_iff]
    refine ⟨rfl, ?_⟩
    refine .cons rfl (.cons rfl (served_renewing_iff.mpr (Fetch.served_iff.mpr ?_)))
    rw [fetch_token]
    exact .cons rfl (.nil _)

end Sample

theorem send_shared_crossing :
    Shared (fun _ : Bool => Sample.client) Sample.log (fun _ => .finish (.ok ⟨200, ""⟩)) (some "new") :=
  send_shared (fun _ => Sample.client) (fun _ => Sample.errand) Sample.underway

end WalletTopUp.ProviderClient
