import WalletTopUp.Proofs.Provider.Outcome
import WalletTopUp.Proofs.Trace.Correlation
import WalletTopUp.Provider.Clients

/-!
# The course of an order

An order is one errand, and whatever happens on its way every request repeats it: only the token may differ. So all
requests of an order name the same wallet and the same reference, and the reference is their correlation id as well
(`topUp_places`). An order that is accepted has been asked for and answered.
-/

namespace WalletTopUp

theorem Exchange.call_notMem_of_apiReplies {history : Exchange.History} (h : apiReplies history = [])
    {call : ApiRequest} {answer : Except String Reply} : (⟨.call call, answer⟩ : Exchange.Entry) ∉ history := by
  intro hmem
  have hreply : answer ∈ apiReplies history := mem_apiReplies hmem
  rw [h] at hreply
  cases hreply

namespace ProviderClient
open Exchange (apiReplies)
variable {c : ProviderClient} {errand : Errand} {token : String} {left : Nat} {history : Exchange.History}

/-! ## The requests of an errand -/

def Repeats (c : ProviderClient) (errand : Errand) (history : Exchange.History) : Prop :=
  ∀ call answer, ⟨.call call, answer⟩ ∈ history → ∃ token, call = c.request errand token

namespace Repeats

theorem of_nil (h : apiReplies history = []) : c.Repeats errand history :=
  fun _ _ hmem => absurd hmem (Exchange.call_notMem_of_apiReplies h)

theorem append {first rest : Exchange.History} (h : c.Repeats errand first) (h' : c.Repeats errand rest) :
    c.Repeats errand (first ++ rest) := by
  intro call answer hmem
  exact (List.mem_append.mp hmem).elim (h call answer) (h' call answer)

end Repeats

/-- All requests of the history carry the errand out with one token. -/
def Carries (c : ProviderClient) (errand : Errand) (token : String) (history : Exchange.History) : Prop :=
  ∀ call answer, ⟨.call call, answer⟩ ∈ history → call = c.request errand token

namespace Carries

theorem of_nil (h : apiReplies history = []) : c.Carries errand token history :=
  fun _ _ hmem => absurd hmem (Exchange.call_notMem_of_apiReplies h)

theorem request (answer : Except String Reply) :
    c.Carries errand token [⟨.call (c.request errand token), answer⟩] := by
  intro call answer' hmem
  cases List.mem_singleton.mp hmem
  rfl

theorem append {first rest : Exchange.History} (h : c.Carries errand token first)
    (h' : c.Carries errand token rest) : c.Carries errand token (first ++ rest) := by
  intro call answer hmem
  exact (List.mem_append.mp hmem).elim (h call answer) (h' call answer)

theorem repeats (h : c.Carries errand token history) : c.Repeats errand history :=
  fun call answer hmem => ⟨token, h call answer hmem⟩

end Carries

theorem Round.carries {halt : Halt} (h : c.Round errand token left history halt) :
    c.Carries errand token history := by
  induction h with
  | unsendable => nofun
  | forgiven left htoken reply hserver drawn hrest ih =>
    exact (Carries.request (.ok reply)).append ((Carries.of_nil (apiReplies_waiting c left drawn)).append ih)
  | _ => exact .request _

theorem Round.repeats {halt : Halt} (h : c.Round errand token left history halt) : c.Repeats errand history :=
  h.carries.repeats

variable {r : Except ProviderFault Response}

theorem Sent.repeats (h : c.Sent errand history r) : c.Repeats errand history := by
  have hopening (o : Opening) : c.Repeats errand (o.history c) := .of_nil (Opening.apiReplies_history c o)
  have hrenewing : c.Repeats errand c.renewing := .of_nil rfl
  have hfetching (fetch : Fetch) : c.Repeats errand (fetch.history c) := .of_nil (Fetch.apiReplies_history c fetch)
  cases h with
  | unopened o ho => exact hopening o
  | settled o ho hround => exact (hopening o).append hround.repeats
  | unrenewed o ho hround fetch hfetch =>
    exact (hopening o).append (hround.repeats.append (hrenewing.append (hfetching fetch)))
  | renewed o ho hround fetch hfetch hround' =>
    exact (hopening o).append (hround.repeats.append (hrenewing.append ((hfetching fetch).append hround'.repeats)))
  | refused o ho hround fetch hfetch hround' =>
    have hdropping : c.Repeats errand [⟨.clearSlot, ()⟩] := .of_nil rfl
    exact (hopening o).append
      (hround.repeats.append (hrenewing.append ((hfetching fetch).append (hround'.repeats.append hdropping))))

theorem Sent.exists_reply {response : Response} (h : c.Sent errand history (.ok response)) :
    ∃ call reply, (⟨.call call, .ok reply⟩ : Exchange.Entry) ∈ history ∧ c.responseOf reply = .ok response := by
  obtain ⟨_, _, replies, last, -, -, -, hreplies, hdecides⟩ := h.decides
  generalize hr : (.ok response : Except ProviderFault Response) = r at hdecides
  cases hdecides with
  | settled hobtained hsettles =>
    cases hsettles with
    | answered reply hserver hrefusal =>
      have hmem : .ok reply ∈ apiReplies history := by
        rw [hreplies]
        exact List.mem_append_right _ (List.mem_singleton_self _)
      obtain ⟨call, hcall⟩ := Exchange.exists_call_of_mem_apiReplies hmem
      exact ⟨call, reply, hcall, rfl⟩
    | _ => cases hr
  | _ => cases hr

/-! ## The errand of an order -/

theorem decodeBody_silent (shape : Json.Shape) (response : Response) : (c.decodeBody shape response).Silent := by
  unfold decodeBody
  split
  · exact .pure _
  · exact .throw _

theorem amountOf_silent (x : Binary64) : (c.amountOf x).Silent := by
  unfold amountOf
  split
  · exact .pure _
  · exact .throw _

theorem ifAccepted_silent {response : Response} {x : Exchanged (Option Acceptance)} (h : x.Silent) :
    (c.ifAccepted response x).Silent := by
  unfold ifAccepted
  split
  · exact .pure _
  · split
    · exact h
    · exact .throw _

/-- The errand of an order, or why the order cannot be put into the provider's form. -/
def orderErrand (c : ProviderClient) (order : TopUpOrder) : Except String Errand :=
  match c.method with
  | .gopay => .ok ⟨"POST", Gopay.topUpPath, some (Gopay.orderBody order), order.referenceId⟩
  | .shopeePay => (ShopeePay.wholeAmount order.amount).map fun amount =>
      ⟨"POST", ShopeePay.topUpPath, some (ShopeePay.orderBody order amount), order.referenceId⟩

def judge (c : ProviderClient) (response : Response) : Exchanged (Option Acceptance) :=
  match c.method with
  | .gopay => c.ifAccepted response do
    let (word, providerId, stated, ()) ← c.decodeBody Gopay.topUpShape response
    let status := TransactionStatus.ofProvider word
    if status = .failed then return none
    return some ⟨providerId, status, word, ← c.amountOf stated⟩
  | .shopeePay => c.ifAccepted response do
    let (result, (providerId, stated, word, ()), ()) ← c.decodeBody ShopeePay.topUpShape response
    let status := TransactionStatus.ofProvider word
    if status = .failed ∨ TransactionStatus.ofProvider result = .failed then return none
    return some ⟨providerId, status, word, ← c.amountOf stated⟩

theorem judge_silent (response : Response) : (c.judge response).Silent := by
  unfold judge
  split
  · refine ifAccepted_silent ((decodeBody_silent _ _).bind fun value => ?_)
    dsimp only
    split
    · exact .pure _
    · exact (amountOf_silent _).bind fun _ => .pure _
  · refine ifAccepted_silent ((decodeBody_silent _ _).bind fun value => ?_)
    dsimp only
    split
    · exact .pure _
    · exact (amountOf_silent _).bind fun _ => .pure _

variable {order : TopUpOrder} {accepted : Except ProviderFault (Option Acceptance)}

theorem topUp_eq (order : TopUpOrder) :
    c.topUp order = match c.orderErrand order with
      | .error reason => throw (.invalidRequest c.method reason)
      | .ok errand => c.send errand >>= c.judge := by
  unfold topUp orderErrand judge
  rcases hmethod : c.method with _ | _
  · rfl
  · dsimp only
    unfold ShopeePay.topUp
    rcases ShopeePay.wholeAmount order.amount with reason | amount
    · rw [hmethod]
      rfl
    · rfl

/-- An order is its errand; what is made of the response asks nothing more. -/
theorem topUp_cases (h : (c.topUp order).run.Yields history accepted) :
    (history = [] ∧ ∃ fault, accepted = .error fault) ∨
      ∃ errand sent, c.orderErrand order = .ok errand ∧ (c.send errand).run.Yields history sent ∧
        ∀ acceptance, accepted = .ok acceptance →
          ∃ response, sent = .ok response ∧ (c.judge response).run.Yields [] (.ok acceptance) := by
  rw [topUp_eq] at h
  rcases herrand : c.orderErrand order with reason | errand <;> rw [herrand] at h
  · obtain ⟨rfl, rfl⟩ := Attempt.yields_throw_iff.mp h
    exact .inl ⟨rfl, _, rfl⟩
  · rcases Attempt.yields_bind_cases h with ⟨fault, hsend, rfl⟩ | ⟨first, rest, response, rfl, hsend, hjudge⟩
    · exact .inr ⟨errand, _, rfl, hsend, nofun⟩
    · obtain rfl := (judge_silent response).eq_nil hjudge
      rw [List.append_nil]
      exact .inr ⟨errand, _, rfl, hsend, fun acceptance haccepted => ⟨response, rfl, haccepted ▸ hjudge⟩⟩

theorem sent_of_topUp {errand : Errand} (herrand : c.orderErrand order = .ok errand)
    (h : (c.topUp order).run.Yields history accepted) : ∃ sent, c.Sent errand history sent := by
  rw [topUp_eq, herrand] at h
  rcases Attempt.yields_bind_cases h with ⟨fault, hsend, -⟩ | ⟨first, rest, response, rfl, hsend, hjudge⟩
  · exact ⟨_, sent_of_yields hsend⟩
  · obtain rfl := (judge_silent response).eq_nil hjudge
    rw [List.append_nil]
    exact ⟨_, sent_of_yields hsend⟩

end ProviderClient

/-! ## What the requests name -/

/-- The member of an order that names the wallet. -/
def PaymentMethod.walletMember : PaymentMethod → String
  | gopay => "wallet_id"
  | shopeePay => "user_id"

/-- The member of an order that names the top-up. -/
def PaymentMethod.referenceMember : PaymentMethod → String
  | gopay => "reference_id"
  | shopeePay => "request_id"

/-- The request places an order: it names the wallet and the top-up, and is correlated by the latter. -/
structure ApiRequest.Places (call : ApiRequest) (method : PaymentMethod) (walletId referenceId : String) : Prop where
  body : ∃ body, call.errand.body = some body ∧ body.member? method.walletMember = some (.text walletId) ∧
    body.member? method.referenceMember = some (.text referenceId)
  header : ∀ (headers : Headers) (context : Option SpanContext),
    (headers.withCorrelation context call.errand.requestId).requestId? = some referenceId

namespace ProviderClient
variable {c : ProviderClient} {errand : Errand} {order : TopUpOrder} {history : Exchange.History}
  {accepted : Except ProviderFault (Option Acceptance)}

theorem orderErrand_places (h : c.orderErrand order = .ok errand) (hvisible : Text.Visible order.referenceId)
    (token : String) : (c.request errand token).Places c.method order.walletId order.referenceId := by
  unfold orderErrand at h
  rcases hmethod : c.method with _ | _ <;> rw [hmethod] at h
  · cases h
    refine ⟨⟨_, rfl, ?_, ?_⟩, fun headers context => headers.requestId?_withCorrelation context hvisible⟩
    · rfl
    · rfl
  · rcases hamount : ShopeePay.wholeAmount order.amount with reason | amount <;> rw [hamount] at h <;> cases h
    refine ⟨⟨_, rfl, ?_, ?_⟩, fun headers context => headers.requestId?_withCorrelation context hvisible⟩
    · rfl
    · rfl

/-- **All requests of an order place it**, whatever slot, network and provider do. What is accepted is made of the
reply to one of them. -/
theorem topUp_places (hvisible : Text.Visible order.referenceId)
    (h : (c.topUp order).run.Yields history accepted) :
    (∀ call answer, (⟨.call call, answer⟩ : Exchange.Entry) ∈ history →
        call.Places c.method order.walletId order.referenceId) ∧
      ∀ acceptance, accepted = .ok acceptance →
        ∃ call reply response, (⟨.call call, .ok reply⟩ : Exchange.Entry) ∈ history ∧
          c.responseOf reply = .ok response ∧ (c.judge response).run.Yields [] (.ok acceptance) := by
  rcases topUp_cases h with ⟨rfl, fault, rfl⟩ | ⟨errand, sent, herrand, hsent, hresponse⟩
  · exact ⟨nofun, nofun⟩
  · refine ⟨fun call answer hmem => ?_, fun acceptance hacceptance => ?_⟩
    · obtain ⟨token, rfl⟩ := (sent_of_yields hsent).repeats call answer hmem
      exact orderErrand_places herrand hvisible token
    · obtain ⟨response, rfl, hjudge⟩ := hresponse acceptance hacceptance
      obtain ⟨call, reply, hmem, hreply⟩ := (sent_of_yields hsent).exists_reply
      exact ⟨call, reply, response, hmem, hreply, hjudge⟩

end ProviderClient

end WalletTopUp
