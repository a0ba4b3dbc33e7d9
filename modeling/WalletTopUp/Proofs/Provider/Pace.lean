import WalletTopUp.Proofs.Provider.Order
import WalletTopUp.Proofs.Provider.Slot

/-!
# The pace of a request

A request that is sent again and again stays the same but for its token, and the token changes at most once, between
the refusal of the first and the fetch of the second (`Carried`). What the request waits for is told by the replies so
far: after each server error that is not the last reply it pauses, by the policy for the number of server errors
before, and a refused token makes no pause and does not count (`Paced`). `send_paced` says both of every history, and
what it means for an order: all requests name the same top-up and the same amount.
-/

namespace WalletTopUp

/-! ## Requests and pauses -/

namespace Exchange

def isBeat : Exchange.Entry → Bool
  | ⟨.call _, _⟩ | ⟨.pause _, _⟩ => true
  | _ => false

def beats (history : Exchange.History) : Exchange.History := history.filter isBeat

def pause? : Exchange.Entry → Option Nat
  | ⟨.pause millis, _⟩ => some millis
  | _ => none

/-- The pauses of a history, in milliseconds. -/
def pauses (history : Exchange.History) : List Nat := history.filterMap pause?

section
variable (first rest history : Exchange.History)

@[simp] theorem beats_append : beats (first ++ rest) = beats first ++ beats rest :=
  List.filter_append first rest

theorem apiReplies_beats : apiReplies (beats history) = apiReplies history := by
  rw [beats, apiReplies, List.filterMap_filter]
  refine congrArg (List.filterMap · history) (funext fun entry => ?_)
  obtain ⟨q, answer⟩ := entry
  cases q <;> rfl

theorem pauses_beats : pauses (beats history) = pauses history := by
  rw [beats, pauses, List.filterMap_filter]
  refine congrArg (List.filterMap · history) (funext fun entry => ?_)
  obtain ⟨q, answer⟩ := entry
  cases q <;> rfl

end

end Exchange

namespace ProviderClient
open Exchange (apiReplies authReplies beats)
variable {c : ProviderClient} {errand : Errand} {token : String} {left sofar : Nat} {history rest : Exchange.History}
  {halt : Halt} {r : Except ProviderFault Response}

variable (c) in
/-- Requests and pauses after so many server errors: a server error with more to come is followed by the pause for the
number of server errors before it, a refusal by the next request at once, and any reply may be the last. -/
inductive Paced : (sofar : Nat) → Exchange.History → Prop
  | done (sofar : Nat) : Paced sofar []
  | last (sofar : Nat) (call : ApiRequest) (reply : Except String Reply) : Paced sofar [⟨.call call, reply⟩]
  | forgiven (sofar : Nat) (call : ApiRequest) (reply : Reply) (hserver : reply.isServerError = true)
      (drawn : Fin 1000) {rest : Exchange.History} (hmore : apiReplies rest ≠ []) (hrest : Paced (sofar + 1) rest) :
      Paced sofar (⟨.call call, .ok reply⟩ :: ⟨.pause (c.retry.backoff sofar drawn), ()⟩ :: rest)
  | refused (sofar : Nat) (call : ApiRequest) (reply : Reply) (hrefusal : c.isRefusal reply = true)
      {rest : Exchange.History} (hrest : Paced sofar rest) : Paced sofar (⟨.call call, .ok reply⟩ :: rest)

/-- There are as many pauses as server errors before the last reply, and their lengths follow the policy in order. -/
theorem Paced.exists_draws (h : c.Paced sofar history) :
    ∃ draws : List (Fin 1000),
      draws.length = (apiReplies history).dropLast.countP Exchange.isServerError ∧
        Exchange.pauses history = (draws.zipIdx sofar).map fun (drawn, k) => c.retry.backoff k drawn := by
  induction h with
  | done sofar => exact ⟨[], rfl, rfl⟩
  | last sofar call reply => exact ⟨[], rfl, rfl⟩
  | @forgiven sofar call reply hserver drawn rest hmore hrest ih =>
    obtain ⟨draws, hlength, hpauses⟩ := ih
    have hcounts : Exchange.isServerError (.ok reply) = true := hserver
    refine ⟨drawn :: draws, ?_, ?_⟩
    · change _ = (Except.ok reply :: apiReplies rest).dropLast.countP Exchange.isServerError
      rw [List.dropLast_cons_of_ne_nil hmore, List.countP_cons_of_pos hcounts, ← hlength, List.length_cons]
    · rw [List.zipIdx_cons, List.map_cons, ← hpauses]
      rfl
  | @refused sofar call reply hrefusal rest hrest ih =>
    obtain ⟨draws, hlength, hpauses⟩ := ih
    refine ⟨draws, ?_, hpauses⟩
    change _ = (Except.ok reply :: apiReplies rest).dropLast.countP Exchange.isServerError
    by_cases hmore : apiReplies rest = []
    · rw [hlength, hmore]
      rfl
    · have hcounts : ¬ Exchange.isServerError (.ok reply) = true :=
        fun hserver => not_refusal_of_serverError hserver hrefusal
      rw [List.dropLast_cons_of_ne_nil hmore, List.countP_cons_of_neg hcounts, hlength]

/-! ## The pieces of a request -/

theorem beats_waiting (left : Nat) (drawn : Fin 1000) :
    ∃ drawn' : Fin 1000, beats (c.waiting left drawn) =
      [⟨.pause (c.retry.backoff (c.retry.maxRetries - (left + 1)) drawn'), ()⟩] := by
  unfold waiting
  split_ifs
  · exact ⟨drawn, rfl⟩
  · exact ⟨RetryPolicy.noDraw, rfl⟩

@[simp] theorem beats_renewing : beats c.renewing = [] := rfl

@[simp] theorem Fetch.beats_history (f : Fetch) : beats (f.history c) = [] := by
  unfold Fetch.history
  rcases f.token with _ | _ <;> rfl

@[simp] theorem Opening.beats_history (o : Opening) : beats (o.history c) = [] := by
  rcases o with token | fetch
  · rfl
  · exact Fetch.beats_history fetch

theorem Round.apiReplies_ne_nil (h : c.Round errand token left history halt) (htoken : headerBytes? token ≠ none) :
    apiReplies history ≠ [] := by
  obtain ⟨hnone, -⟩ | ⟨before, reply, rfl⟩ := h.eq_append
  · exact absurd hnone htoken
  · rw [Exchange.apiReplies_append]
    exact List.append_ne_nil_of_right_ne_nil _ (List.cons_ne_nil _ _)

theorem Round.left_le {left' status : Nat} (h : c.Round errand token left history (.refused left' status)) :
    left' ≤ left := by
  obtain ⟨forgiven, -, -, -, hsum, -⟩ := h.replies
  exact hsum ▸ Nat.le_add_left left' forgiven.length

variable (c rest) in
/-- What may follow the attempts with one token. -/
def Halt.Paced : Halt → Prop
  | .settled _ => rest = []
  | .refused left _ => c.Paced (c.retry.maxRetries - left) rest

theorem Round.paced (h : c.Round errand token left history halt) (hle : left ≤ c.retry.maxRetries)
    (hrest : halt.Paced c rest) : c.Paced (c.retry.maxRetries - left) (beats history ++ rest) := by
  induction h with
  | unsendable left htoken =>
    rw [show rest = [] from hrest]
    exact .done _
  | unreachable left htoken reason =>
    rw [show rest = [] from hrest]
    exact .last _ _ _
  | answered left htoken reply hserver hrefusal =>
    rw [show rest = [] from hrest]
    exact .last _ _ _
  | refused left htoken reply hrefusal => exact .refused _ _ reply hrefusal hrest
  | exhausted htoken reply hserver =>
    rw [show rest = [] from hrest]
    exact .last _ _ _
  | @forgiven left htoken reply hserver drawn again halt hagain ih =>
    obtain ⟨drawn', hwaiting⟩ := beats_waiting (c := c) left drawn
    have hbeats : beats (⟨.call (c.request errand token), .ok reply⟩ :: (c.waiting left drawn ++ again)) =
        ⟨.call (c.request errand token), .ok reply⟩ ::
          ⟨.pause (c.retry.backoff (c.retry.maxRetries - (left + 1)) drawn'), ()⟩ :: beats again := by
      rw [← List.singleton_append, Exchange.beats_append, Exchange.beats_append, hwaiting]
      rfl
    have hmore : apiReplies (beats again ++ rest) ≠ [] := by
      rw [Exchange.apiReplies_append, Exchange.apiReplies_beats]
      exact List.append_ne_nil_of_left_ne_nil (hagain.apiReplies_ne_nil htoken) _
    have hnext : c.retry.maxRetries - (left + 1) + 1 = c.retry.maxRetries - left := by omega
    rw [hbeats]
    exact .forgiven _ _ reply hserver drawn' hmore (hnext ▸ ih (Nat.le_of_succ_le hle) hrest)

/-! ## The whole way -/

theorem Sent.paced (h : c.Sent errand history r) : c.Paced 0 (beats history) := by
  have hfirst {token : String} {history rest : Exchange.History} {halt : Halt}
      (hround : c.Round errand token c.retry.maxRetries history halt) (hrest : halt.Paced c rest) :
      c.Paced 0 (beats history ++ rest) :=
    Nat.sub_self c.retry.maxRetries ▸ hround.paced (Nat.le_refl _) hrest
  cases h with
  | unopened o ho =>
    rw [Opening.beats_history]
    exact .done 0
  | @settled o token ho history r hround =>
    rw [Exchange.beats_append, Opening.beats_history, ← List.append_nil (beats history)]
    exact hfirst hround rfl
  | unrenewed o ho hround fetch hfetch =>
    simp only [Exchange.beats_append, Opening.beats_history, beats_renewing, Fetch.beats_history, List.nil_append]
    exact hfirst hround (.done _)
  | @renewed o token ho history left status hround fetch token' hfetch history' r hround' =>
    simp only [Exchange.beats_append, Opening.beats_history, beats_renewing, Fetch.beats_history, List.nil_append]
    refine hfirst hround ?_
    rw [Halt.Paced, ← List.append_nil (beats history')]
    exact hround'.paced hround.left_le rfl
  | @refused o token ho history left status hround fetch token' hfetch history' left' status' hround' =>
    simp only [Exchange.beats_append, Opening.beats_history, beats_renewing, Fetch.beats_history, List.nil_append]
    exact hfirst hround (hround'.paced hround.left_le (.done _))

variable (c errand) in
/-- The tokens that the requests of a history carry: all carry the first token, until it is dropped and another one
fetched; all after that carry the other one. -/
inductive Carried : Exchange.History → Prop
  | unopened (o : Opening) {reason : String} (ho : o.token = .error reason) : Carried (o.history c)
  | kept (o : Opening) {token : String} (ho : o.token = .ok token) {rest : Exchange.History}
      (hrest : c.Carries errand token rest) (hkept : authReplies rest = []) : Carried (o.history c ++ rest)
  | unrenewed (o : Opening) {token : String} (ho : o.token = .ok token) {before : Exchange.History}
      (hbefore : c.Carries errand token before) (hkept : authReplies before = []) (fetch : Fetch) {reason : String}
      (hfetch : fetch.token = .error reason) :
      Carried (o.history c ++ (before ++ (c.renewing ++ fetch.history c)))
  | renewed (o : Opening) {token : String} (ho : o.token = .ok token) {before : Exchange.History}
      (hbefore : c.Carries errand token before) (hkept : authReplies before = []) (fetch : Fetch) {token' : String}
      (hfetch : fetch.token = .ok token') {after : Exchange.History} (hafter : c.Carries errand token' after)
      (hkept' : authReplies after = []) :
      Carried (o.history c ++ (before ++ (c.renewing ++ (fetch.history c ++ after))))

theorem Sent.carried (h : c.Sent errand history r) : c.Carried errand history := by
  cases h with
  | unopened o ho => exact .unopened o ho
  | settled o ho hround => exact .kept o ho hround.carries hround.authReplies_eq
  | unrenewed o ho hround fetch hfetch => exact .unrenewed o ho hround.carries hround.authReplies_eq fetch hfetch
  | renewed o ho hround fetch hfetch hround' =>
    exact .renewed o ho hround.carries hround.authReplies_eq fetch hfetch hround'.carries hround'.authReplies_eq
  | @refused o token ho history left status hround fetch token' hfetch history' left' status' hround' =>
    refine .renewed o ho hround.carries hround.authReplies_eq fetch hfetch
      (hround'.carries.append (.of_nil rfl)) ?_
    rw [Exchange.authReplies_append, hround'.authReplies_eq]
    rfl

end ProviderClient

/-! ## The errand of an order -/

/-- The member of an order that states the amount. -/
def PaymentMethod.amountMember : PaymentMethod → String
  | gopay => "amount"
  | shopeePay => "topup_amount"

/-- The amount of an order in the form of the provider, or why it has none. -/
def PaymentMethod.statedAmount (amount : Decimal) : PaymentMethod → Except String Json.Number
  | gopay => .ok (.float amount.toBinary64)
  | shopeePay => (ShopeePay.wholeAmount amount).map .integer

/-- The errand places an order: its correlation id is the reference of the order, and its body states the reference and
the amount. -/
structure Errand.Orders (errand : Errand) (method : PaymentMethod) (order : TopUpOrder) : Prop where
  requestId : errand.requestId = order.referenceId
  body : ∃ body amount, errand.body = some body ∧
    body.member? method.referenceMember = some (.text order.referenceId) ∧
      method.statedAmount order.amount = .ok amount ∧ body.member? method.amountMember = some (.number amount)

namespace ProviderClient
open Exchange (apiReplies beats)

theorem orders_of_orderErrand {c : ProviderClient} {errand : Errand} {order : TopUpOrder}
    (h : c.orderErrand order = .ok errand) :
    errand.Orders c.method order := by
  unfold orderErrand at h
  rcases hmethod : c.method with _ | _ <;> rw [hmethod] at h
  · cases h
    exact ⟨rfl, _, _, rfl, rfl, rfl, rfl⟩
  · rcases hamount : ShopeePay.wholeAmount order.amount with reason | amount <;> rw [hamount] at h <;> cases h
    refine ⟨rfl, _, .integer amount, rfl, rfl, ?_, rfl⟩
    rw [PaymentMethod.statedAmount, hamount]
    rfl

/-- **A request that is sent again is the same request.** Whatever slot, clock, network and provider answer, all
requests of an errand have its method, address, body and correlation id, and carry the first token until it is refused
and the freshly fetched one after that. Between them are just the pauses of the policy, in order from the first: one
after each server error that is not the last reply, and none after a refused token. An order is one errand, which names
the top-up and its amount, so every request for the order does. -/
theorem send_paced (c : ProviderClient) :
    (∀ errand history r, (c.send errand).run.Yields history r →
      c.Repeats errand history ∧ c.Carried errand history ∧ c.Paced 0 (beats history) ∧
        ∃ draws : List (Fin 1000), draws.length = (apiReplies history).dropLast.countP Exchange.isServerError ∧
          Exchange.pauses history = draws.mapIdx c.retry.backoff) ∧
    ∀ order history accepted, (c.topUp order).run.Yields history accepted →
      apiReplies history = [] ∨ ∃ errand sent, c.orderErrand order = .ok errand ∧ errand.Orders c.method order ∧
        (c.send errand).run.Yields history sent ∧ c.Repeats errand history := by
  refine ⟨fun errand history r h => ?_, fun order history accepted h => ?_⟩
  · have hsent : c.Sent errand history r := sent_of_yields h
    obtain ⟨draws, hlength, hpauses⟩ := hsent.paced.exists_draws
    rw [Exchange.apiReplies_beats] at hlength
    rw [Exchange.pauses_beats, ← List.mapIdx_eq_zipIdx_map] at hpauses
    exact ⟨hsent.repeats, hsent.carried, hsent.paced, draws, hlength, hpauses⟩
  · obtain ⟨rfl, -⟩ | ⟨errand, sent, herrand, hsent, -⟩ := topUp_cases h
    · exact .inl rfl
    · exact .inr ⟨errand, sent, herrand, orders_of_orderErrand herrand, hsent, (sent_of_yields hsent).repeats⟩

/-! ## A refusal between two server errors -/

namespace Sample

/-- A server error, a refusal that a new token answers, another server error and the response. -/
def mixed : Exchange.History :=
  (Opening.held "old").history client ++
    ((⟨.call (client.request errand "old"), .ok ⟨503, .ok []⟩⟩ :: (client.waiting 2 RetryPolicy.noDraw ++
      [⟨.call (client.request errand "old"), .ok ⟨401, .ok []⟩⟩])) ++
    (client.renewing ++ (fetch.history client ++
      (⟨.call (client.request errand "new"), .ok ⟨500, .ok []⟩⟩ :: (client.waiting 1 RetryPolicy.noDraw ++
        [⟨.call (client.request errand "new"), .ok ⟨200, .ok []⟩⟩])))))

theorem sent_mixed : client.Sent errand mixed (.ok ⟨200, ""⟩) := by
  have hold : headerBytes? "old" ≠ none := by decide +kernel
  have hnew : headerBytes? "new" ≠ none := by decide +kernel
  have hresponse : client.responseOf ⟨200, .ok []⟩ = .ok ⟨200, ""⟩ := by decide +kernel
  rw [← hresponse]
  exact .renewed (.held "old") rfl
    (.forgiven 2 hold ⟨503, .ok []⟩ rfl _ (.refused 2 hold ⟨401, .ok []⟩ rfl)) fetch fetch_token
    (.forgiven 1 hnew ⟨500, .ok []⟩ rfl _ (.answered 1 hnew ⟨200, .ok []⟩ rfl rfl))

end Sample

theorem send_paced_mixed :
    Sample.client.Carried Sample.errand Sample.mixed ∧ Sample.client.Paced 0 (beats Sample.mixed) ∧
      Exchange.pauses Sample.mixed = [100, 200] := by
  obtain ⟨-, hcarried, hpaced, -⟩ := (send_paced Sample.client).1 Sample.errand Sample.mixed _ Sample.sent_mixed.yields
  exact ⟨hcarried, hpaced, by decide +kernel⟩

end ProviderClient

end WalletTopUp
