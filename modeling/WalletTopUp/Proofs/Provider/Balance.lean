import WalletTopUp.Proofs.Json.Canonical
import WalletTopUp.Proofs.Money.Floating
import WalletTopUp.Proofs.Provider.Judgement
import WalletTopUp.Proofs.Provider.Slot

/-!
# What becomes of a question for a balance

Whoever asks a provider for a balance gets the balance or a fault, and the replies on the way decide which. A token
that cannot be had and a second refusal are the provider's word against the service (`Denied`). Server errors beyond
the budget and requests that get no whole reply are no word at all (`Unanswered`). Otherwise there is one response
(`Responded`), and its status and its body decide. `balance_concludes` says so for all histories, and that these are
all the ways there are.
-/

namespace WalletTopUp

namespace Exchange
open ProviderClient (tokenOfReply)

def token? : Exchange.Entry → Option String
  | ⟨.readSlot, held⟩ => held
  | ⟨.authenticate _, reply⟩ => (tokenOfReply reply).toOption
  | _ => none

def tokens (history : Exchange.History) : List String := history.filterMap token?

@[simp] theorem tokens_append (first rest : Exchange.History) : tokens (first ++ rest) = tokens first ++ tokens rest :=
  List.filterMap_append

theorem tokens_authenticate (request : AuthRequest) (reply : Except String Reply) (rest : Exchange.History) :
    tokens (⟨.authenticate request, reply⟩ :: rest) = (tokenOfReply reply).toOption.toList ++ tokens rest := by
  have htoken : token? ⟨.authenticate request, reply⟩ = (tokenOfReply reply).toOption := rfl
  rw [tokens, List.filterMap_cons, htoken]
  rcases tokenOfReply reply with reason | token <;> rfl

theorem exists_authenticate_of_mem_authReplies {history : Exchange.History} {answer : Except String Reply}
    (h : answer ∈ authReplies history) : ∃ request, (⟨.authenticate request, answer⟩ : Exchange.Entry) ∈ history := by
  obtain ⟨⟨question, found⟩, hmem, hreply⟩ := List.mem_filterMap.mp h
  cases question <;> cases hreply
  exact ⟨_, hmem⟩

end Exchange

namespace ProviderClient
open Exchange (apiReplies authReplies isServerError tokens)

section
variable {α : Type} {c : ProviderClient} {errand : Errand} {token : String} {left status : Nat}
  {history asked : Exchange.History} {r : Except ProviderFault Response} {reply : Reply} {response : Response}

/-! ## Tokens -/

theorem toOption_eq_some_iff {x : Except String String} : x.toOption = some token ↔ x = .ok token := by
  cases x <;> simp [Except.toOption]

theorem mem_tokens_iff : token ∈ tokens history ↔ Obtained history token := by
  unfold tokens
  rw [List.mem_filterMap]
  constructor
  · rintro ⟨⟨question, found⟩, hmem, htoken⟩
    cases question with
    | readSlot =>
      obtain rfl : found = some token := htoken
      exact .inl hmem
    | authenticate request =>
      exact .inr ⟨found, List.mem_filterMap.mpr ⟨_, hmem, rfl⟩, toOption_eq_some_iff.mp htoken⟩
    | _ => cases htoken
  · rintro (hslot | ⟨reply, hmem, htoken⟩)
    · exact ⟨_, hslot, rfl⟩
    · obtain ⟨request, hentry⟩ := Exchange.exists_authenticate_of_mem_authReplies hmem
      exact ⟨_, hentry, toOption_eq_some_iff.mpr htoken⟩

@[simp] theorem tokens_renewing : tokens c.renewing = [] := rfl

@[simp] theorem tokens_waiting (drawn : Fin 1000) : tokens (c.waiting left drawn) = [] := by
  unfold waiting
  split_ifs <;> rfl

theorem Round.tokens_eq {halt : Halt} (h : c.Round errand token left history halt) : tokens history = [] := by
  induction h with
  | @forgiven left htoken reply hverdict drawn rest halt hrest ih =>
    change tokens (c.waiting left drawn ++ rest) = _
    rw [Exchange.tokens_append, tokens_waiting, ih]
    rfl
  | _ => rfl

@[simp] theorem Fetch.tokens_history (f : Fetch) : tokens (f.history c) = f.token.toOption.toList := by
  have hkeeping : tokens (Fetch.keeping c f.token) = [] := by
    rcases f.token with reason | token <;> rfl
  change tokens
    (⟨.authenticate ⟨c.base ++ c.authPath, c.authBody f.now, f.id.text⟩, f.reply⟩ :: Fetch.keeping c f.token) = _
  rw [Exchange.tokens_authenticate, hkeeping, List.append_nil]
  rfl

@[simp] theorem Opening.tokens_history (o : Opening) : tokens (o.history c) = o.token.toOption.toList := by
  rcases o with held | fetch
  · rfl
  · exact Fetch.tokens_history fetch

theorem Round.eq_of_unsendable {halt : Halt} (h : c.Round errand token left history halt)
    (htoken : headerBytes? token = none) :
    halt = .settled (.error (.transport c.method ProviderClient.unsendable)) := by
  cases h with
  | unsendable => rfl
  | unreachable left hsendable => exact absurd htoken hsendable
  | answered left hsendable => exact absurd htoken hsendable
  | refused left hsendable => exact absurd htoken hsendable
  | exhausted hsendable => exact absurd htoken hsendable
  | forgiven left hsendable => exact absurd htoken hsendable

/-- Every token that is got is tried. If that settles something it settles the request. -/
theorem Sent.exists_round (h : c.Sent errand history r) (hobtained : Obtained history token) :
    ∃ left tried halt, c.Round errand token left tried halt ∧ ∀ r', halt = .settled r' → r = r' := by
  have hmem : token ∈ tokens history := mem_tokens_iff.mpr hobtained
  cases h with
  | unopened o ho => simp [toOption_eq_some_iff, ho] at hmem
  | @settled o first ho _ _ hround =>
    obtain rfl : first = token := by simpa [hround.tokens_eq, toOption_eq_some_iff, ho] using hmem
    exact ⟨_, _, _, hround, fun r' hr => Halt.settled.inj hr⟩
  | @unrenewed o first ho _ _ _ hround fetch _ hfetch =>
    obtain rfl : first = token := by simpa [hround.tokens_eq, toOption_eq_some_iff, ho, hfetch] using hmem
    exact ⟨_, _, _, hround, nofun⟩
  | @renewed o first ho _ _ _ hround fetch second hfetch _ _ hround' =>
    have htokens : first = token ∨ second = token := by
      simpa [hround.tokens_eq, hround'.tokens_eq, toOption_eq_some_iff, ho, hfetch] using hmem
    obtain rfl | rfl := htokens
    · exact ⟨_, _, _, hround, nofun⟩
    · exact ⟨_, _, _, hround', fun r' hr => Halt.settled.inj hr⟩
  | @refused o first ho _ _ _ hround fetch second hfetch _ _ _ hround' =>
    have hclearing : tokens [⟨.clearSlot, ()⟩] = [] := rfl
    have htokens : first = token ∨ second = token := by
      simpa [hround.tokens_eq, hround'.tokens_eq, toOption_eq_some_iff, ho, hfetch, hclearing] using hmem
    obtain rfl | rfl := htokens
    · exact ⟨_, _, _, hround, nofun⟩
    · exact ⟨_, _, _, hround', nofun⟩

theorem Sent.eq_of_unsendable (h : c.Sent errand history r) (hobtained : Obtained history token)
    (htoken : headerBytes? token = none) : r = .error (.transport c.method ProviderClient.unsendable) := by
  obtain ⟨left, tried, halt, hround, hsettled⟩ := h.exists_round hobtained
  exact hsettled _ (hround.eq_of_unsendable htoken)

/-! ## Replies -/

/-- The provider refuses a token by 401, and a token that has expired at Gopay by 403 as well. -/
def refuses (method : PaymentMethod) : Except String Reply → Bool
  | .ok reply => reply.status = 401 || method = .gopay && reply.status = 403
  | .error _ => false

theorem refuses_ok (hforbidden : c.refreshOnForbidden = decide (c.method = .gopay)) (reply : Reply) :
    refuses c.method (.ok reply) = c.isRefusal reply := by
  rw [refuses, isRefusal, hforbidden]

def lastWord (c : ProviderClient) : Except String Reply → Except ProviderFault Response
  | .error reason => .error (.transport c.method reason)
  | .ok reply =>
    match c.verdict reply.status with
    | .answered => c.responseOf reply
    | .serverError => .error (.server c.method reply.status)
    | .refused => .error (c.refusedAgain reply.status)

theorem Decides.eq_lastWord {errors refusals : Nat} {last : List (Except String Reply)} {answer : Except String Reply}
    (h : c.Decides history errors refusals last r) (hmem : answer ∈ last) : r = c.lastWord answer := by
  cases h with
  | settled hobtained hsettles =>
    cases hsettles with
    | unsendable => cases hmem
    | unreachable reason =>
      obtain rfl := List.mem_singleton.mp hmem
      rfl
    | exhausted reply hserver =>
      obtain rfl := List.mem_singleton.mp hmem
      simp only [lastWord, verdict_serverError_iff.mpr hserver]
    | answered reply hserver hrefusal =>
      obtain rfl := List.mem_singleton.mp hmem
      simp only [lastWord, verdict_answered_iff.mpr ⟨hserver, hrefusal⟩]
  | refused reply hrefusal =>
    obtain rfl := List.mem_singleton.mp hmem
    simp only [lastWord, verdict_refused_iff.mpr hrefusal]
  | noToken => cases hmem

theorem Absorbs.countP_isServerError {errors refusals : Nat} {replies : List Reply}
    (h : c.Absorbs errors refusals replies) : (replies.map Except.ok).countP isServerError = errors := by
  rw [List.countP_map, ← h.errors_eq]
  rfl

theorem Absorbs.countP_refuses {errors refusals : Nat} {replies : List Reply} (h : c.Absorbs errors refusals replies)
    (hforbidden : c.refreshOnForbidden = decide (c.method = .gopay)) :
    (replies.map Except.ok).countP (refuses c.method) = refusals := by
  have hsame : refuses c.method ∘ Except.ok = c.isRefusal := funext (refuses_ok hforbidden)
  rw [List.countP_map, hsame, h.refusals_eq]

namespace Sent

theorem eq_lastWord {answer : Except String Reply} (h : c.Sent errand history r) (hmem : answer ∈ apiReplies history)
    (hdecisive : ∀ reply, answer = .ok reply → reply.isServerError = false ∧ c.isRefusal reply = false) :
    r = c.lastWord answer := by
  obtain ⟨_, _, replies, last, -, -, habsorbs, hreplies, hdecides⟩ := h.decides
  rw [hreplies, List.mem_append, List.mem_map] at hmem
  obtain ⟨reply, hreply, rfl⟩ | hlast := hmem
  · obtain ⟨hserver, hrefusal⟩ := hdecisive reply rfl
    exact absurd (habsorbs.survived reply hreply) (by simp [hserver, hrefusal])
  · exact hdecides.eq_lastWord hlast

theorem eq_responseOf (h : c.Sent errand history r) (hmem : .ok reply ∈ apiReplies history)
    (hserver : reply.isServerError = false) (hrefusal : c.isRefusal reply = false) : r = c.responseOf reply := by
  have hlast : r = c.lastWord (.ok reply) := by
    refine h.eq_lastWord hmem ?_
    rintro _ ⟨⟩
    exact ⟨hserver, hrefusal⟩
  rw [hlast, lastWord, verdict_answered_iff.mpr ⟨hserver, hrefusal⟩]

theorem eq_transport {reason : String} (h : c.Sent errand history r) (hmem : .error reason ∈ apiReplies history) :
    r = .error (.transport c.method reason) :=
  h.eq_lastWord hmem nofun

theorem exists_server (h : c.Sent errand history r)
    (hcount : c.retry.maxRetries < (apiReplies history).countP isServerError) :
    ∃ status, r = .error (.server c.method status) := by
  obtain ⟨errors, _, replies, last, herrors, -, habsorbs, hreplies, hdecides⟩ := h.decides
  rw [hreplies, List.countP_append, habsorbs.countP_isServerError] at hcount
  have hlast : 0 < last.countP isServerError := by omega
  obtain ⟨_ | reply, hmem, hserver⟩ := List.countP_pos_iff.mp hlast
  · cases hserver
  · refine ⟨reply.status, ?_⟩
    rw [hdecides.eq_lastWord hmem, lastWord, verdict_serverError_iff.mpr hserver]

theorem exists_refusedAgain (h : c.Sent errand history r)
    (hforbidden : c.refreshOnForbidden = decide (c.method = .gopay))
    (hcount : 2 ≤ (apiReplies history).countP (refuses c.method)) :
    ∃ status, r = .error (c.refusedAgain status) := by
  obtain ⟨_, refusals, replies, last, -, hrefusals, habsorbs, hreplies, hdecides⟩ := h.decides
  rw [hreplies, List.countP_append, habsorbs.countP_refuses hforbidden] at hcount
  have hlast : 0 < last.countP (refuses c.method) := by omega
  obtain ⟨_ | reply, hmem, hrefused⟩ := List.countP_pos_iff.mp hlast
  · cases hrefused
  · refine ⟨reply.status, ?_⟩
    rw [hdecides.eq_lastWord hmem, lastWord, verdict_refused_iff.mpr (refuses_ok hforbidden reply ▸ hrefused)]

theorem eq_refused {answer : Except String Reply} {reason : String} (h : c.Sent errand history r)
    (hmem : answer ∈ authReplies history) (hreason : tokenOfReply answer = .error reason) :
    r = .error (c.refused reason) := by
  obtain ⟨request, hentry⟩ := Exchange.exists_authenticate_of_mem_authReplies hmem
  obtain ⟨first, rest, rfl⟩ := List.append_of_mem hentry
  exact (h.decided.failedFetch first request answer rest reason rfl hreason).1

end Sent

end

/-! ## Statements -/

structure Statement where
  walletId : String
  amount : Binary64
  currency : String
  lastUpdated : Option Instant
  deriving DecidableEq

def statement? (c : ProviderClient) (body : String) : Except Json.Failure Statement :=
  match c.method with
  | .gopay => (Gopay.balanceShape.whole (Text.symbols body)).map
      fun (_, (walletId, amount, currency, lastUpdated, ()), ()) => ⟨walletId, amount, currency, lastUpdated⟩
  | .shopeePay => (ShopeePay.balanceShape.whole (Text.symbols body)).map
      fun (_, (walletId, amount, currency, lastUpdated, ()), ()) => ⟨walletId, amount, currency, lastUpdated⟩

/-- An amount that is stated is a number of the format. -/
theorem statement?_canonical {c : ProviderClient} {body : String} {s : Statement} (h : c.statement? body = .ok s) :
    s.amount.Canonical := by
  unfold statement? at h
  split at h
  all_goals
    obtain ⟨⟨_, ⟨_, _, _, _, ⟨⟩⟩, ⟨⟩⟩, hwhole, rfl⟩ := exists_of_map_ok h
    exact (Json.Shape.canonical_of_whole hwhole).2.1.2.1

/-- The errand of a question for a balance: Gopay names the wallet in the path, ShopeePay in the body. -/
def balanceErrand (c : ProviderClient) (walletId requestId : String) : Errand :=
  match c.method with
  | .gopay => ⟨"GET", Gopay.balancePath walletId, none, requestId⟩
  | .shopeePay => ⟨"POST", ShopeePay.balancePath, some (ShopeePay.balanceBody walletId requestId), requestId⟩

def balanceOf (c : ProviderClient) (s : Statement) : Except ProviderFault WalletBalance :=
  match Decimal.ofBinary64? s.amount with
  | some amount => .ok ⟨s.walletId, amount, s.currency, s.lastUpdated⟩
  | none => .error (.invalidResponse c.method
      ("invalid amount " ++ s.amount.positional ++ ": Error while converting to Decimal"))

def reading (c : ProviderClient) (response : Response) : Except ProviderFault WalletBalance :=
  if Http.isSuccess response.status then
    match c.statement? response.body with
    | .error failure => .error (.invalidResponse c.method failure.text)
    | .ok s => c.balanceOf s
  else .error (.rejected c.method response.status response.body)

section
variable {c : ProviderClient} {walletId requestId : String} {history : Exchange.History}
  {found : Except ProviderFault WalletBalance} {response : Response}

theorem balance_eq (c : ProviderClient) (walletId requestId : String) :
    c.balance walletId requestId = c.send (c.balanceErrand walletId requestId) >>= fun response => do
      c.requireSuccess response
      match c.statement? response.body with
      | .error failure => throw (c.unreadable failure.text)
      | .ok s => return ⟨s.walletId, ← c.amountOf s.amount, s.currency, s.lastUpdated⟩ := by
  unfold balance statement? balanceErrand
  rcases hmethod : c.method with _ | _
  · refine congrArg (c.send _ >>= ·) (funext fun response => ?_)
    refine congrArg (c.requireSuccess response >>= ·) (funext fun _ => ?_)
    unfold decodeBody
    rcases Gopay.balanceShape.whole (Text.symbols response.body) with failure | ⟨_, ⟨_, _, _, _, ⟨⟩⟩, ⟨⟩⟩ <;> rfl
  · refine congrArg (c.send _ >>= ·) (funext fun response => ?_)
    refine congrArg (c.requireSuccess response >>= ·) (funext fun _ => ?_)
    unfold decodeBody
    rcases ShopeePay.balanceShape.whole (Text.symbols response.body) with failure | ⟨_, ⟨_, _, _, _, ⟨⟩⟩, ⟨⟩⟩ <;> rfl

theorem yields_balance_iff : (c.balance walletId requestId).run.Yields history found ↔
    ∃ sent, (c.send (c.balanceErrand walletId requestId)).run.Yields history sent ∧ found = sent.bind c.reading := by
  have hrun : (c.balance walletId requestId).run =
      (c.send (c.balanceErrand walletId requestId)).run.bind fun sent => .finish (sent.bind c.reading) := by
    rw [balance_eq, ExceptT.run_bind]
    refine congrArg _ (funext fun sent => ?_)
    rcases sent with fault | response
    · rfl
    change ExceptT.run (c.requireSuccess response >>= fun _ => _) = .finish (c.reading response)
    unfold requireSuccess reading
    split_ifs
    · rcases c.statement? response.body with failure | s
      · rfl
      · unfold balanceOf amountOf
        dsimp only
        rcases Decimal.ofBinary64? s.amount with _ | amount <;> rfl
    · rfl
  rw [hrun]
  exact Program.yields_bind_finish_iff

end

/-! ## The ways it can go -/

section
variable (c : ProviderClient) (asked : Exchange.History)

inductive Denied : Prop
  /-- A token cannot be had. -/
  | noToken {answer : Except String Reply} (hmem : answer ∈ authReplies asked) {reason : String}
      (h : tokenOfReply answer = .error reason)
  /-- The new token is refused as well. -/
  | refusedAgain (h : 2 ≤ (apiReplies asked).countP (refuses c.method))

/-- A reply that is neither a server error nor a refusal. -/
structure Answers (reply : Reply) : Prop where
  mem : .ok reply ∈ apiReplies asked
  noServerError : isServerError (.ok reply) = false
  noRefusal : refuses c.method (.ok reply) = false

inductive Unanswered : Prop
  | serverErrors (h : c.retry.maxRetries < (apiReplies asked).countP isServerError)
  | unreachable {reason : String} (h : .error reason ∈ apiReplies asked)
  | brokenOff {reply : Reply} (hanswers : c.Answers asked reply) {reason : String} (h : reply.body = .error reason)
  /-- No header can hold the token. -/
  | unsendable {token : String} (hobtained : Obtained asked token) (h : headerBytes? token = none)

/-- The response has come back. -/
def Responded (response : Response) : Prop := ∃ reply, c.Answers asked reply ∧ c.responseOf reply = .ok response

end

section
variable {c : ProviderClient} {errand : Errand} {asked : Exchange.History} {sent : Except ProviderFault Response}
  {reply : Reply} {response : Response}

theorem Answers.isRefusal_eq (h : c.Answers asked reply)
    (hforbidden : c.refreshOnForbidden = decide (c.method = .gopay)) : c.isRefusal reply = false := by
  rw [← refuses_ok hforbidden, h.noRefusal]

variable (hsent : c.Sent errand asked sent) (hforbidden : c.refreshOnForbidden = decide (c.method = .gopay))
include hsent

theorem Responded.eq (hforbidden : c.refreshOnForbidden = decide (c.method = .gopay))
    (h : c.Responded asked response) : sent = .ok response := by
  obtain ⟨reply, hanswers, hresponse⟩ := h
  rw [← hresponse]
  exact hsent.eq_responseOf hanswers.mem hanswers.noServerError (hanswers.isRefusal_eq hforbidden)

include hforbidden

theorem Denied.eq (h : c.Denied asked) : ∃ reason, sent = .error (.authentication c.method reason) := by
  cases h with
  | noToken hmem hreason => exact ⟨_, hsent.eq_refused hmem hreason⟩
  | refusedAgain hcount =>
    obtain ⟨status, hsent⟩ := hsent.exists_refusedAgain hforbidden hcount
    exact ⟨_, hsent⟩

theorem Unanswered.eq (h : c.Unanswered asked) :
    (∃ status, sent = .error (.server c.method status)) ∨ ∃ reason, sent = .error (.transport c.method reason) := by
  cases h with
  | serverErrors hcount => exact .inl (hsent.exists_server hcount)
  | unreachable hmem => exact .inr ⟨_, hsent.eq_transport hmem⟩
  | @brokenOff reply hanswers reason hbody =>
    refine .inr ⟨reason, ?_⟩
    rw [hsent.eq_responseOf hanswers.mem hanswers.noServerError (hanswers.isRefusal_eq hforbidden), responseOf, hbody]
  | unsendable hobtained htoken => exact .inr ⟨_, hsent.eq_of_unsendable hobtained htoken⟩

/-- There is no other way. -/
theorem Sent.denied_or_unanswered_or_responded :
    c.Denied asked ∨ c.Unanswered asked ∨ ∃ response, c.Responded asked response := by
  obtain ⟨errors, refusals, replies, last, -, -, habsorbs, hreplies, hdecides⟩ := hsent.decides
  cases hdecides with
  | settled hobtained hsettles =>
    cases hsettles with
    | unsendable htoken => exact .inr (.inl (.unsendable hobtained htoken))
    | unreachable reason =>
      have hmem : .error reason ∈ apiReplies asked := by
        rw [hreplies]
        exact List.mem_append_right _ List.mem_cons_self
      exact .inr (.inl (.unreachable hmem))
    | exhausted reply hserver hspent =>
      refine .inr (.inl (.serverErrors ?_))
      have hcounts : isServerError (.ok reply) = true := hserver
      rw [hreplies, List.countP_append, habsorbs.countP_isServerError, List.countP_singleton, if_pos hcounts]
      omega
    | answered reply hserver hrefusal =>
      have hmem : .ok reply ∈ apiReplies asked := by
        rw [hreplies]
        exact List.mem_append_right _ List.mem_cons_self
      have hanswers : c.Answers asked reply := ⟨hmem, hserver, (refuses_ok hforbidden reply).trans hrefusal⟩
      rcases hbody : reply.body with reason | bytes
      · exact .inr (.inl (.brokenOff hanswers hbody))
      · exact .inr (.inr ⟨⟨reply.status, bodyText bytes⟩, reply, hanswers, by rw [responseOf, hbody]⟩)
  | refused reply hrefusal hrefusals =>
    refine .inl (.refusedAgain ?_)
    rw [hreplies, List.countP_append, habsorbs.countP_refuses hforbidden, hrefusals, List.countP_singleton,
      if_pos ((refuses_ok hforbidden reply).trans hrefusal)]
  | noToken hmem hreason => exact .inl (.noToken hmem hreason)

theorem Sent.one :
    c.Denied asked ∧ ¬ c.Unanswered asked ∧ (∀ response, ¬ c.Responded asked response) ∨
      ¬ c.Denied asked ∧ c.Unanswered asked ∧ (∀ response, ¬ c.Responded asked response) ∨
      ¬ c.Denied asked ∧ ¬ c.Unanswered asked ∧ ∃! response, c.Responded asked response := by
  have hdenied : c.Denied asked → ¬ c.Unanswered asked := by
    intro hdenied hunanswered
    obtain ⟨reason, rfl⟩ := hdenied.eq hsent hforbidden
    obtain ⟨status, ⟨⟩⟩ | ⟨reason, ⟨⟩⟩ := hunanswered.eq hsent hforbidden
  have hresponded : ∀ response, c.Responded asked response → ¬ c.Denied asked ∧ ¬ c.Unanswered asked := by
    intro response hresponded
    obtain rfl := hresponded.eq hsent hforbidden
    refine ⟨fun hdenied => ?_, fun hunanswered => ?_⟩
    · obtain ⟨reason, ⟨⟩⟩ := hdenied.eq hsent hforbidden
    · obtain ⟨status, ⟨⟩⟩ | ⟨reason, ⟨⟩⟩ := hunanswered.eq hsent hforbidden
  obtain h | h | ⟨response, h⟩ := hsent.denied_or_unanswered_or_responded hforbidden
  · exact .inl ⟨h, hdenied h, fun response h' => (hresponded response h').1 h⟩
  · exact .inr (.inl ⟨fun h' => hdenied h' h, h, fun response h' => (hresponded response h').2 h⟩)
  · obtain ⟨hnot, hnot'⟩ := hresponded response h
    refine .inr (.inr ⟨hnot, hnot', response, h, fun response' h' => ?_⟩)
    exact Except.ok.inj ((h'.eq hsent hforbidden).symm.trans (h.eq hsent hforbidden))

end

/-- The result is a fault that the caller is told with the status. -/
def FailsWith {α : Type} (status : Nat) (r : Except Fault α) : Prop :=
  ∃ fault, r = .error fault ∧ fault.status = status

/-- What the replies of a provider to a question for a balance come to. `Shown` holds of the balance that is stated. -/
structure Concludes {α : Type} (c : ProviderClient) (asked : Exchange.History) (r : Except Fault α)
    (Shown : WalletBalance → Prop) : Prop where
  denied : c.Denied asked → FailsWith 424 r
  unanswered : c.Unanswered asked → FailsWith 502 r
  missing : ∀ response, c.Responded asked response → response.status = 404 → FailsWith 404 r
  /-- Any other response without success; ShopeePay's 403 is one as well. -/
  rejected : ∀ response, c.Responded asked response → ¬ (200 ≤ response.status ∧ response.status < 300) →
    response.status ≠ 404 → FailsWith 400 r
  unreadable : ∀ response failure, c.Responded asked response → 200 ≤ response.status → response.status < 300 →
    c.statement? response.body = .error failure → FailsWith 502 r
  /-- The number is beyond the limit of the amounts. -/
  worthless : ∀ response s, c.Responded asked response → 200 ≤ response.status → response.status < 300 →
    c.statement? response.body = .ok s → ¬ s.amount.InRange → FailsWith 502 r
  stated : ∀ response s, c.Responded asked response → 200 ≤ response.status → response.status < 300 →
    c.statement? response.body = .ok s → s.amount.InRange →
    ∃ amount, Decimal.ofBinary64? s.amount = some amount ∧ Decimal.Stands s.amount amount ∧
      Shown ⟨s.walletId, amount, s.currency, s.lastUpdated⟩
  /-- One of the three holds, and only one, and there is only one response. -/
  one : c.Denied asked ∧ ¬ c.Unanswered asked ∧ (∀ response, ¬ c.Responded asked response) ∨
    ¬ c.Denied asked ∧ c.Unanswered asked ∧ (∀ response, ¬ c.Responded asked response) ∨
    ¬ c.Denied asked ∧ ¬ c.Unanswered asked ∧ ∃! response, c.Responded asked response

section
variable {α β : Type} {c : ProviderClient} {walletId requestId : String} {asked : Exchange.History}
  {sent : Except ProviderFault Response} {found : Except ProviderFault WalletBalance}

theorem FailsWith.of_toFault {fault : ProviderFault} {status : Nat} (h : fault.toFault.status = status) :
    FailsWith status ((.error fault : Except ProviderFault α).mapError ProviderFault.toFault) :=
  ⟨_, rfl, h⟩

theorem Concludes.imp {r : Except Fault α} {r' : Except Fault β} {Shown Shown' : WalletBalance → Prop}
    (h : c.Concludes asked r Shown) (hfault : ∀ fault, r = .error fault → r' = .error fault)
    (hshown : ∀ wallet, Shown wallet → Shown' wallet) : c.Concludes asked r' Shown' := by
  have hfails : ∀ status, FailsWith status r → FailsWith status r' := by
    rintro status ⟨fault, hr, hstatus⟩
    exact ⟨fault, hfault fault hr, hstatus⟩
  constructor
  case denied => exact fun hdenied => hfails _ (h.denied hdenied)
  case unanswered => exact fun hunanswered => hfails _ (h.unanswered hunanswered)
  case missing => exact fun response hresponded hstatus => hfails _ (h.missing response hresponded hstatus)
  case rejected =>
    exact fun response hresponded hsuccess hstatus => hfails _ (h.rejected response hresponded hsuccess hstatus)
  case unreadable =>
    exact fun response failure hresponded hlow hhigh hbody =>
      hfails _ (h.unreadable response failure hresponded hlow hhigh hbody)
  case worthless =>
    exact fun response s hresponded hlow hhigh hbody hrange =>
      hfails _ (h.worthless response s hresponded hlow hhigh hbody hrange)
  case stated =>
    intro response s hresponded hlow hhigh hbody hrange
    obtain ⟨amount, hamount, hstands, hwallet⟩ := h.stated response s hresponded hlow hhigh hbody hrange
    exact ⟨amount, hamount, hstands, hshown _ hwallet⟩
  case one => exact h.one

theorem reading_of_success {response : Response} (hlow : 200 ≤ response.status) (hhigh : response.status < 300) :
    c.reading response = match c.statement? response.body with
      | .error failure => .error (.invalidResponse c.method failure.text)
      | .ok s => c.balanceOf s :=
  if_pos (isSuccess_iff.mpr ⟨hlow, hhigh⟩)

theorem reading_of_rejected {response : Response} (h : ¬ (200 ≤ response.status ∧ response.status < 300)) :
    c.reading response = .error (.rejected c.method response.status response.body) :=
  if_neg (mt isSuccess_iff.mp h)

/-- **What becomes of a question for a balance.** -/
theorem balance_concludes (hforbidden : c.refreshOnForbidden = decide (c.method = .gopay))
    (h : (c.balance walletId requestId).run.Yields asked found) :
    c.Concludes asked (found.mapError ProviderFault.toFault) fun wallet => found = .ok wallet := by
  obtain ⟨sent, hyields, rfl⟩ := yields_balance_iff.mp h
  have hsent : c.Sent _ asked sent := sent_of_yields hyields
  constructor
  case denied =>
    intro hdenied
    obtain ⟨reason, rfl⟩ := hdenied.eq hsent hforbidden
    exact .of_toFault rfl
  case unanswered =>
    intro hunanswered
    obtain ⟨status, rfl⟩ | ⟨reason, rfl⟩ := hunanswered.eq hsent hforbidden
    · exact .of_toFault rfl
    · exact .of_toFault rfl
  case missing =>
    intro response hresponded hstatus
    obtain rfl := hresponded.eq hsent hforbidden
    have hrejected : ¬ (200 ≤ response.status ∧ response.status < 300) := by omega
    change FailsWith 404 ((c.reading response).mapError ProviderFault.toFault)
    rw [reading_of_rejected hrejected, hstatus]
    exact .of_toFault rfl
  case rejected =>
    intro response hresponded hrejected hstatus
    obtain rfl := hresponded.eq hsent hforbidden
    change FailsWith 400 ((c.reading response).mapError ProviderFault.toFault)
    rw [reading_of_rejected hrejected]
    refine .of_toFault ?_
    rw [ProviderFault.toFault, if_neg hstatus]
    rfl
  case unreadable =>
    intro response failure hresponded hlow hhigh hbody
    obtain rfl := hresponded.eq hsent hforbidden
    change FailsWith 502 ((c.reading response).mapError ProviderFault.toFault)
    rw [reading_of_success hlow hhigh, hbody]
    exact .of_toFault rfl
  case worthless =>
    intro response s hresponded hlow hhigh hbody hrange
    obtain rfl := hresponded.eq hsent hforbidden
    have hamount : Decimal.ofBinary64? s.amount = none := by
      rwa [← Decimal.isSome_ofBinary64?_iff (statement?_canonical hbody), Option.not_isSome_iff_eq_none] at hrange
    change FailsWith 502 ((c.reading response).mapError ProviderFault.toFault)
    rw [reading_of_success hlow hhigh, hbody]
    dsimp only
    rw [balanceOf, hamount]
    exact .of_toFault rfl
  case stated =>
    intro response s hresponded hlow hhigh hbody hrange
    obtain rfl := hresponded.eq hsent hforbidden
    have hcanonical : s.amount.Canonical := statement?_canonical hbody
    obtain ⟨amount, hamount⟩ := Option.isSome_iff_exists.mp ((Decimal.isSome_ofBinary64?_iff hcanonical).mpr hrange)
    refine ⟨amount, hamount, Decimal.stands_of_ofBinary64? hcanonical hamount, ?_⟩
    change c.reading response = _
    rw [reading_of_success hlow hhigh, hbody]
    dsimp only
    rw [balanceOf, hamount]
  case one => exact hsent.one hforbidden

end

end ProviderClient

end WalletTopUp
