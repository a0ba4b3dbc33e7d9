import WalletTopUp.Proofs.Provider.Outcome
import WalletTopUp.Provider.Clients

/-!
# The slot after a request

`SlotServes` answers a request from a slot that nobody else uses; the provider and the clock answer as they like.
Attempts do not touch the slot, so while they last it holds the token that they are made with. It is empty at the
end exactly when a token could not be had or was refused twice (`send_slot`).
-/

namespace WalletTopUp.ProviderClient

/-- From one content of the slot to the next the question of an entry may be answered as the entry says. -/
def SlotServes (slot : Option String) (entry : Exchange.Entry) (slot' : Option String) : Prop :=
  match entry with
  | ⟨.readSlot, answer⟩ => answer = slot ∧ slot' = slot
  | ⟨.fillSlot token, _⟩ => slot' = some token
  | ⟨.clearSlot, _⟩ => slot' = none
  | _ => slot' = slot

section
variable {c : ProviderClient} {errand : Errand} {token : String} {left : Nat} {slot slot' : Option String}
  {history rest : Exchange.History} {halt : Halt} {r : Except ProviderFault Response}

/-! ## The slot along the pieces of a request -/

theorem served_waiting_iff {drawn : Fin 1000} :
    Served SlotServes slot (c.waiting left drawn ++ rest) slot' ↔ Served SlotServes slot rest slot' := by
  unfold waiting pausing
  split_ifs <;> simp [SlotServes]

theorem served_renewing_iff :
    Served SlotServes slot (c.renewing ++ rest) slot' ↔ Served SlotServes none rest slot' := by
  simp [renewing, SlotServes]

theorem Round.served_iff (h : c.Round errand token left history halt) :
    Served SlotServes slot (history ++ rest) slot' ↔ Served SlotServes slot rest slot' := by
  induction h with
  | forgiven left htoken reply hserver drawn hrest ih =>
    rw [List.cons_append, List.append_assoc, served_cons_iff]
    simp only [SlotServes, exists_eq_left, served_waiting_iff, ih]
  | _ => simp [SlotServes]

theorem Fetch.served_iff {fetch : Fetch} :
    Served SlotServes slot (fetch.history c ++ rest) slot' ↔ Served SlotServes fetch.token.toOption rest slot' := by
  unfold Fetch.history
  rcases fetch.token with reason | token <;> simp [keeping, SlotServes, Except.toOption]

/-- What the slot held when the request began. -/
def Opening.found : Opening → Option String
  | .held token => some token
  | .fetched _ => none

theorem Opening.served_iff {o : Opening} :
    Served SlotServes slot (o.history c ++ rest) slot' ↔
      slot = o.found ∧ Served SlotServes o.token.toOption rest slot' := by
  rcases o with token | fetch
  · simp only [Opening.history, Opening.token, Opening.found, SlotServes, Except.toOption, List.cons_append,
      List.nil_append, served_cons_iff]
    constructor
    · rintro ⟨_, ⟨rfl, rfl⟩, hrest⟩
      exact ⟨rfl, hrest⟩
    · rintro ⟨rfl, hrest⟩
      exact ⟨_, ⟨rfl, rfl⟩, hrest⟩
  · simp [Opening.history, Opening.token, Opening.found, SlotServes, Fetch.served_iff, eq_comm]

/-! ## The last attempt -/

def Gets (c : ProviderClient) (token : String) (entries : Exchange.History) : Prop :=
  entries = [⟨.readSlot, some token⟩] ∨ ∃ fetch : Fetch, fetch.token = .ok token ∧ entries = fetch.history c

/-- The last attempt of a request is made with the token: the request that ends the history was sent with it, or no
header can hold the token and the request that was built with it has failed at once. -/
inductive LastAttempt (c : ProviderClient) (errand : Errand) (token : String) (history : Exchange.History)
    (r : Except ProviderFault Response) : Prop
  | sent {before : Exchange.History} {reply : Except String Reply}
      (h : history = before ++ [⟨.call (c.request errand token), reply⟩])
  | unsendable {before entries : Exchange.History} (htoken : headerBytes? token = none)
      (h : history = before ++ entries) (hentries : c.Gets token entries)
      (hr : r = .error (.transport c.method ProviderClient.unsendable))

theorem Round.eq_append (h : c.Round errand token left history halt) :
    (headerBytes? token = none ∧ history = [] ∧
        halt = .settled (.error (.transport c.method ProviderClient.unsendable))) ∨
      ∃ before reply, history = before ++ [⟨.call (c.request errand token), reply⟩] := by
  induction h with
  | unsendable left htoken => exact .inl ⟨htoken, rfl, rfl⟩
  | @forgiven left htoken reply hserver drawn rest halt hrest ih =>
    obtain ⟨hunsendable, -⟩ | ⟨before, reply', rfl⟩ := ih
    · exact absurd hunsendable htoken
    · exact .inr ⟨⟨.call (c.request errand token), .ok reply⟩ :: (c.waiting left drawn ++ before), reply', by simp⟩
  | _ => exact .inr ⟨[], _, rfl⟩

theorem LastAttempt.of_round (h : c.Round errand token left history (.settled r))
    {before entries : Exchange.History} (hentries : c.Gets token entries) :
    c.LastAttempt errand token (before ++ entries ++ history) r := by
  obtain ⟨htoken, rfl, hhalt⟩ | ⟨sent, reply, rfl⟩ := h.eq_append
  · cases hhalt
    exact .unsendable htoken (List.append_nil _) hentries rfl
  · exact .sent (List.append_assoc _ _ _).symm

theorem Opening.gets {o : Opening} (h : o.token = .ok token) :
    ∃ before entries, o.history c = before ++ entries ∧ c.Gets token entries := by
  rcases o with held | fetch
  · cases h
    exact ⟨[], _, rfl, .inl rfl⟩
  · exact ⟨[⟨.readSlot, none⟩], _, rfl, .inr ⟨fetch, h, rfl⟩⟩

/-- The request has failed for want of a token that the provider takes. -/
def Unauthenticated (r : Except ProviderFault Response) : Prop :=
  ∃ provider reason, r = .error (.authentication provider reason)

theorem Round.authenticated (h : c.Round errand token left history (.settled r)) : ¬ Unauthenticated r := by
  rintro ⟨provider, reason, rfl⟩
  obtain ⟨_, _, _, _, _, _, hsettles⟩ := h.settles
  generalize hr : (.error (.authentication provider reason) : Except ProviderFault Response) = r at hsettles
  cases hsettles with
  | answered reply hserver hrefusal =>
    unfold responseOf at hr
    split at hr <;> cases hr
  | _ => cases hr

/-! ## The slot at the end -/

/-- What the slot holds after a request tells how it went. -/
inductive Leaves (c : ProviderClient) (errand : Errand) (history : Exchange.History)
    (r : Except ProviderFault Response) : Option String → Prop
  | nothing (hr : Unauthenticated r) : Leaves c errand history r none
  | token (token : String) (hr : ¬ Unauthenticated r) (h : c.LastAttempt errand token history r) :
      Leaves c errand history r (some token)

theorem Sent.leaves (h : c.Sent errand history r) (hserved : Served SlotServes slot history slot') :
    c.Leaves errand history r slot' := by
  rw [← List.append_nil history] at hserved
  cases h with
  | @unopened o reason ho =>
    obtain ⟨-, hslot⟩ := Opening.served_iff.mp hserved
    rw [ho, served_nil_iff] at hslot
    rw [hslot]
    exact .nothing ⟨c.method, reason, rfl⟩
  | @settled o token ho history r hround =>
    obtain ⟨before, entries, hopening, hgets⟩ := Opening.gets (c := c) ho
    rw [List.append_assoc, Opening.served_iff, hround.served_iff, ho, served_nil_iff] at hserved
    rw [hserved.2, hopening]
    exact .token token hround.authenticated (.of_round hround hgets)
  | @unrenewed o token ho history left status hround fetch reason hfetch =>
    simp only [List.append_assoc] at hserved
    rw [Opening.served_iff, hround.served_iff, served_renewing_iff, Fetch.served_iff, hfetch, served_nil_iff] at hserved
    rw [hserved.2]
    exact .nothing ⟨c.method, reason, rfl⟩
  | @renewed o token ho history left status hround fetch token' hfetch history' r hround' =>
    simp only [List.append_assoc] at hserved
    rw [Opening.served_iff, hround.served_iff, served_renewing_iff, Fetch.served_iff, hround'.served_iff, hfetch,
      served_nil_iff] at hserved
    rw [hserved.2]
    have hlast : c.LastAttempt errand token'
        ((o.history c ++ (history ++ c.renewing)) ++ fetch.history c ++ history') r :=
      .of_round hround' (.inr ⟨fetch, hfetch, rfl⟩)
    simp only [List.append_assoc] at hlast
    exact .token token' hround'.authenticated hlast
  | @refused o token ho history left status hround fetch token' hfetch history' left' status' hround' =>
    simp only [List.append_assoc] at hserved
    rw [Opening.served_iff, hround.served_iff, served_renewing_iff, Fetch.served_iff, hround'.served_iff] at hserved
    obtain ⟨-, hslot⟩ := hserved
    simp only [List.cons_append, List.nil_append, served_cons_iff, SlotServes, exists_eq_left, served_nil_iff] at hslot
    rw [hslot]
    exact .nothing ⟨c.method, _, rfl⟩

/-! ## The next request -/

def asksProvider (entry : Exchange.Entry) : Bool :=
  match entry with
  | ⟨.call _, _⟩ | ⟨.authenticate _, _⟩ => true
  | _ => false

/-- The first thing that is asked of the provider is a token. -/
def BeginsWithFetch (history : Exchange.History) : Prop :=
  ∃ request reply, (history.filter asksProvider).head? = some ⟨.authenticate request, reply⟩

/-- Nothing is asked of the provider, or a request comes first. -/
def BeginsWithCall (history : Exchange.History) : Prop :=
  ∀ entry, (history.filter asksProvider).head? = some entry → ∃ request reply, entry = ⟨.call request, reply⟩

theorem Sent.beginsWithFetch (h : c.Sent errand history r) (hserved : Served SlotServes none history slot') :
    BeginsWithFetch history := by
  obtain ⟨o, rest, rfl, -⟩ := h.opens
  obtain ⟨hslot, -⟩ := Opening.served_iff.mp hserved
  rcases o with token | fetch
  · cases hslot
  · exact ⟨_, fetch.reply, rfl⟩

theorem Round.eq_cons (h : c.Round errand token left history halt) :
    (headerBytes? token = none ∧ history = [] ∧ ∃ r, halt = .settled r) ∨
      headerBytes? token ≠ none ∧ ∃ reply rest, history = ⟨.call (c.request errand token), reply⟩ :: rest := by
  cases h with
  | unsendable left htoken => exact .inl ⟨htoken, rfl, _, rfl⟩
  | unreachable left htoken => exact .inr ⟨htoken, _, _, rfl⟩
  | answered left htoken => exact .inr ⟨htoken, _, _, rfl⟩
  | refused left htoken => exact .inr ⟨htoken, _, _, rfl⟩
  | exhausted htoken => exact .inr ⟨htoken, _, _, rfl⟩
  | forgiven left htoken => exact .inr ⟨htoken, _, _, rfl⟩

theorem Round.eq_cons_of_refused {left' status : Nat}
    (h : c.Round errand token left history (.refused left' status)) :
    headerBytes? token ≠ none ∧ ∃ reply rest, history = ⟨.call (c.request errand token), reply⟩ :: rest := by
  obtain ⟨-, -, _, ⟨⟩⟩ | hcons := h.eq_cons
  exact hcons

/-- Once it has its first token, a request sends it, or ends when no header can hold it. -/
theorem Sent.calls_once_opened (h : c.Sent errand history r) :
    ∃ (o : Opening) (rest : Exchange.History), history = o.history c ++ rest ∧
      ((rest = [] ∧ ∀ token, o.token = .ok token → headerBytes? token = none) ∨
        ∃ token reply rest', o.token = .ok token ∧ headerBytes? token ≠ none ∧
          rest = ⟨.call (c.request errand token), reply⟩ :: rest') := by
  cases h with
  | unopened o ho => exact ⟨o, [], (List.append_nil _).symm, .inl ⟨rfl, by rw [ho]; nofun⟩⟩
  | settled o ho hround =>
    obtain ⟨htoken, rfl, -⟩ | ⟨htoken, reply, rest, rfl⟩ := hround.eq_cons
    · refine ⟨o, [], rfl, .inl ⟨rfl, ?_⟩⟩
      rw [ho]
      rintro _ ⟨⟩
      exact htoken
    · exact ⟨o, _, rfl, .inr ⟨_, reply, rest, ho, htoken, rfl⟩⟩
  | unrenewed o ho hround | renewed o ho hround | refused o ho hround =>
    obtain ⟨htoken, reply, rest, rfl⟩ := hround.eq_cons_of_refused
    exact ⟨o, _, rfl, .inr ⟨_, reply, _, ho, htoken, rfl⟩⟩

theorem Opening.beginsWithCall {o : Opening} (hfound : o.found ≠ none)
    (hrest : rest = [] ∨ ∃ request reply rest', rest = ⟨.call request, reply⟩ :: rest') :
    BeginsWithCall (o.history c ++ rest) := by
  intro entry hentry
  rcases o with held | fetch
  · obtain rfl | ⟨request, reply, rest', rfl⟩ := hrest
    · cases hentry
    · exact ⟨request, reply, (Option.some.inj hentry).symm⟩
  · exact absurd rfl hfound

theorem Sent.beginsWithCall (h : c.Sent errand history r) (hslot : slot ≠ none)
    (hserved : Served SlotServes slot history slot') : BeginsWithCall history := by
  obtain ⟨o, rest, rfl, hrest⟩ := h.calls_once_opened
  obtain ⟨rfl, -⟩ := Opening.served_iff.mp hserved
  apply Opening.beginsWithCall hslot
  obtain ⟨rfl, -⟩ | ⟨token, reply, rest', -, -, rfl⟩ := hrest
  · exact .inl rfl
  · exact .inr ⟨_, reply, rest', rfl⟩

/-- **The slot after a request.** It is empty if and only if the request has failed for want of a token that the
provider takes. Otherwise it holds the token of the last attempt. So the next request with this slot asks for a
token first in the one case and sends something first in the other. -/
theorem send_slot (c : ProviderClient) (errand : Errand) {slot slot' : Option String} {history : Exchange.History}
    {r : Except ProviderFault Response} (hyields : (c.send errand).run.Yields history r)
    (hserved : Served SlotServes slot history slot') :
    (slot' = none ↔ Unauthenticated r) ∧
      (∀ token, slot' = some token → c.LastAttempt errand token history r) ∧
      ∀ (c' : ProviderClient) errand' history' r' slot'', (c'.send errand').run.Yields history' r' →
        Served SlotServes slot' history' slot'' →
          (Unauthenticated r → BeginsWithFetch history') ∧ (¬ Unauthenticated r → BeginsWithCall history') := by
  have hleaves : c.Leaves errand history r slot' := (sent_of_yields hyields).leaves hserved
  have hempty : slot' = none ↔ Unauthenticated r := by
    cases hleaves with
    | nothing hr => exact iff_of_true rfl hr
    | token token hr hlast => exact iff_of_false nofun hr
  refine ⟨hempty, ?_, ?_⟩
  · rintro token rfl
    cases hleaves with
    | token _ hr hlast => exact hlast
  · intro c' errand' history' r' slot'' hyields' hserved'
    have hsent' : c'.Sent errand' history' r' := sent_of_yields hyields'
    refine ⟨fun hfailed => ?_, fun hgood => hsent'.beginsWithCall (mt hempty.mp hgood) hserved'⟩
    rw [hempty.mpr hfailed] at hserved'
    exact hsent'.beginsWithFetch hserved'

end

/-! ## A token that is replaced -/

namespace Sample

def client : ProviderClient := Gopay.client ⟨"http://gopay", "id", "secret", "signature"⟩ .standard

def errand : Errand := ⟨"GET", Gopay.balancePath "0812", none, "R-1"⟩

def fetch : Fetch := ⟨.epoch, default, .ok ⟨200, .ok (Text.bytes "\x7b\"token\":\"new\"\x7d")⟩⟩

def history : Exchange.History :=
  (Opening.held "old").history client ++
    ([⟨.call (client.request errand "old"), .ok ⟨401, .ok []⟩⟩] ++ (client.renewing ++ (fetch.history client ++
      [⟨.call (client.request errand "new"), .ok ⟨200, .ok []⟩⟩])))

theorem fetch_token : fetch.token = .ok "new" := by decide +kernel

theorem sent : client.Sent errand history (.ok ⟨200, ""⟩) := by
  have hold : headerBytes? "old" ≠ none := by decide +kernel
  have hnew : headerBytes? "new" ≠ none := by decide +kernel
  have hresponse : client.responseOf ⟨200, .ok []⟩ = .ok ⟨200, ""⟩ := by decide +kernel
  rw [← hresponse]
  exact .renewed (.held "old") rfl (.refused _ hold ⟨401, .ok []⟩ rfl) fetch fetch_token
    (.answered _ hnew ⟨200, .ok []⟩ rfl rfl)

theorem served : Served SlotServes (some "old") history (some "new") := by
  unfold history
  rw [Opening.served_iff, List.cons_append, List.nil_append, served_cons_iff]
  refine ⟨rfl, _, rfl, served_renewing_iff.mpr (Fetch.served_iff.mpr ?_)⟩
  rw [fetch_token, served_cons_iff]
  exact ⟨_, rfl, .nil _⟩

end Sample

theorem send_slot_replaced :
    ((some "new" : Option String) = none ↔ Unauthenticated (.ok ⟨200, ""⟩)) ∧
      (∀ token, (some "new" : Option String) = some token →
        Sample.client.LastAttempt Sample.errand token Sample.history (.ok ⟨200, ""⟩)) ∧
      ∀ (c' : ProviderClient) errand' history' r' slot'', (c'.send errand').run.Yields history' r' →
        Served SlotServes (some "new") history' slot'' →
          (Unauthenticated (.ok ⟨200, ""⟩) → BeginsWithFetch history') ∧
            (¬ Unauthenticated (.ok ⟨200, ""⟩) → BeginsWithCall history') :=
  send_slot Sample.client Sample.errand Sample.sent.yields Sample.served

end WalletTopUp.ProviderClient
