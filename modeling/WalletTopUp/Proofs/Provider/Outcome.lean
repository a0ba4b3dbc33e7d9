import Mathlib.Data.List.Basic
import WalletTopUp.Proofs.Provider.Course

/-!
# What decides a request

A request absorbs replies: as many server errors as the policy allows, and one refusal of the token, in any
order. The first reply that is not absorbed decides (`Decides`), unless a token that is needed cannot be had or
cannot be sent. `send_decided` states this for all answers together with what follows for the number of requests.
-/

namespace WalletTopUp

namespace Exchange

def apiReply? : Exchange.Entry → Option (Except String Reply)
  | ⟨.call _, reply⟩ => some reply
  | _ => none

def authReply? : Exchange.Entry → Option (Except String Reply)
  | ⟨.authenticate _, reply⟩ => some reply
  | _ => none

/-- What came back for the requests, in their order. -/
def apiReplies (history : Exchange.History) : List (Except String Reply) := history.filterMap apiReply?

/-- What came back for the requests for tokens, in their order. -/
def authReplies (history : Exchange.History) : List (Except String Reply) := history.filterMap authReply?

def isServerError : Except String Reply → Bool
  | .ok reply => reply.isServerError
  | .error _ => false

section
variable (first rest : Exchange.History)

@[simp] theorem apiReplies_append : apiReplies (first ++ rest) = apiReplies first ++ apiReplies rest :=
  List.filterMap_append

@[simp] theorem authReplies_append : authReplies (first ++ rest) = authReplies first ++ authReplies rest :=
  List.filterMap_append

end

theorem mem_apiReplies {history : Exchange.History} {call : ApiRequest} {answer : Except String Reply}
    (h : ⟨.call call, answer⟩ ∈ history) : answer ∈ apiReplies history :=
  List.mem_filterMap.mpr ⟨_, h, rfl⟩

theorem exists_call_of_mem_apiReplies {history : Exchange.History} {answer : Except String Reply}
    (h : answer ∈ apiReplies history) : ∃ call, (⟨.call call, answer⟩ : Exchange.Entry) ∈ history := by
  obtain ⟨⟨question, found⟩, hmem, hreply⟩ := List.mem_filterMap.mp h
  cases question <;> cases hreply
  exact ⟨_, hmem⟩

end Exchange

namespace ProviderClient
open Exchange (apiReplies authReplies)
variable (c : ProviderClient)

@[simp] theorem apiReplies_waiting (left : Nat) (drawn : Fin 1000) : apiReplies (c.waiting left drawn) = [] := by
  unfold waiting
  split_ifs <;> rfl

@[simp] theorem authReplies_waiting (left : Nat) (drawn : Fin 1000) : authReplies (c.waiting left drawn) = [] := by
  unfold waiting
  split_ifs <;> rfl

@[simp] theorem apiReplies_renewing : apiReplies c.renewing = [] := rfl

@[simp] theorem authReplies_renewing : authReplies c.renewing = [] := rfl

@[simp] theorem Fetch.apiReplies_history (f : Fetch) : apiReplies (f.history c) = [] := by
  unfold Fetch.history
  rcases f.token with _ | _ <;> rfl

@[simp] theorem Fetch.authReplies_history (f : Fetch) : authReplies (f.history c) = [f.reply] := by
  unfold Fetch.history
  rcases f.token with _ | _ <;> rfl

@[simp] theorem Opening.apiReplies_history (o : Opening) : apiReplies (o.history c) = [] := by
  rcases o with token | fetch
  · rfl
  · exact Fetch.apiReplies_history c fetch

/-! ## Attempts with one token -/

/-- What settles the attempts with one token. Another server error does when `spent` holds. -/
inductive Settles (token : String) (spent : Prop) :
    List (Except String Reply) → Except ProviderFault Response → Prop
  | unsendable (h : headerBytes? token = none) :
      Settles token spent [] (.error (.transport c.method unsendable))
  | unreachable (reason : String) : Settles token spent [.error reason] (.error (.transport c.method reason))
  | exhausted (reply : Reply) (hserver : reply.isServerError = true) (h : spent) :
      Settles token spent [.ok reply] (.error (.server c.method reply.status))
  | answered (reply : Reply) (hserver : reply.isServerError = false) (hrefusal : c.isRefusal reply = false) :
      Settles token spent [.ok reply] (c.responseOf reply)

/-- The last reply of the attempts with one token, after server errors of which `left` are forgiven. -/
def Halt.Ends (token : String) (left : Nat) (forgiven : List Reply) (last : List (Except String Reply)) :
    Halt → Prop
  | .settled r => forgiven.length ≤ left ∧ c.Settles token (forgiven.length = left) last r
  | .refused left' status => forgiven.length + left' = left ∧
      ∃ reply : Reply, last = [.ok reply] ∧ reply.status = status ∧ c.isRefusal reply = true

variable {c} {errand : Errand} {token : String} {left : Nat} {history : Exchange.History} {halt : Halt}

theorem Halt.Ends.forgive {forgiven : List Reply} {last : List (Except String Reply)} (reply : Reply)
    (h : halt.Ends c token left forgiven last) : halt.Ends c token (left + 1) (reply :: forgiven) last := by
  rcases halt with r | ⟨left', status⟩
  · obtain ⟨hle, hsettles⟩ := h
    refine ⟨Nat.succ_le_succ hle, ?_⟩
    have hspent : ((reply :: forgiven).length = left + 1) = (forgiven.length = left) := by simp
    rw [hspent]
    exact hsettles
  · obtain ⟨hsum, hlast⟩ := h
    refine ⟨?_, hlast⟩
    rw [List.length_cons]
    omega

/-- The replies of the attempts with one token are server errors, but for the last one. -/
theorem Round.replies (h : c.Round errand token left history halt) :
    ∃ (forgiven : List Reply) (last : List (Except String Reply)),
      apiReplies history = forgiven.map .ok ++ last ∧
      (∀ reply ∈ forgiven, reply.isServerError = true) ∧ halt.Ends c token left forgiven last := by
  induction h with
  | unsendable left htoken =>
    exact ⟨[], [], rfl, by simp, Nat.zero_le _, .unsendable htoken⟩
  | unreachable left htoken reason =>
    exact ⟨[], _, rfl, by simp, Nat.zero_le _, .unreachable reason⟩
  | answered left htoken reply hserver hrefusal =>
    exact ⟨[], _, rfl, by simp, Nat.zero_le _, .answered reply hserver hrefusal⟩
  | refused left htoken reply hrefusal =>
    exact ⟨[], _, rfl, by simp, Nat.zero_add _, reply, rfl, rfl, hrefusal⟩
  | exhausted htoken reply hserver =>
    exact ⟨[], _, rfl, by simp, Nat.le_refl _, .exhausted reply hserver rfl⟩
  | @forgiven left htoken reply hserver drawn rest halt hrest ih =>
    obtain ⟨forgiven, last, hreplies, hforgiven, hends⟩ := ih
    refine ⟨reply :: forgiven, last, ?_, ?_, hends.forgive reply⟩
    · change .ok reply :: apiReplies (c.waiting left drawn ++ rest) = _
      rw [Exchange.apiReplies_append, apiReplies_waiting, hreplies]
      rfl
    · exact List.forall_mem_cons.mpr ⟨hserver, hforgiven⟩

theorem Round.authReplies_eq (h : c.Round errand token left history halt) : authReplies history = [] := by
  induction h with
  | @forgiven left htoken reply hserver drawn rest halt hrest ih =>
    change authReplies (c.waiting left drawn ++ rest) = _
    rw [Exchange.authReplies_append, authReplies_waiting, ih]
    rfl
  | _ => rfl

/-! ## What a request absorbs -/

variable (c) in
/-- Replies that a request survives: so many server errors and so many refusals of its token, in any order. -/
structure Absorbs (errors refusals : Nat) (replies : List Reply) : Prop where
  survived : ∀ reply ∈ replies, reply.isServerError = true ∨ c.isRefusal reply = true
  errors_eq : replies.countP Reply.isServerError = errors
  refusals_eq : replies.countP c.isRefusal = refusals

namespace Absorbs
variable {errors refusals errors' refusals' : Nat} {replies replies' : List Reply}

theorem nil : c.Absorbs 0 0 [] where
  survived := by simp
  errors_eq := rfl
  refusals_eq := rfl

theorem append (h : c.Absorbs errors refusals replies) (h' : c.Absorbs errors' refusals' replies') :
    c.Absorbs (errors + errors') (refusals + refusals') (replies ++ replies') where
  survived := List.forall_mem_append.mpr ⟨h.survived, h'.survived⟩
  errors_eq := by rw [List.countP_append, h.errors_eq, h'.errors_eq]
  refusals_eq := by rw [List.countP_append, h.refusals_eq, h'.refusals_eq]

theorem of_serverErrors (h : ∀ reply ∈ replies, reply.isServerError = true) :
    c.Absorbs replies.length 0 replies where
  survived reply hmem := .inl (h reply hmem)
  errors_eq := List.countP_eq_length.mpr h
  refusals_eq := List.countP_eq_zero.mpr fun reply hmem => not_refusal_of_serverError (h reply hmem)

theorem of_refused {reply : Reply} (h : c.isRefusal reply = true) : c.Absorbs 0 1 [reply] where
  survived := by simp [h]
  errors_eq := List.countP_eq_zero.mpr (by simpa using fun hserver => not_refusal_of_serverError hserver h)
  refusals_eq := by simp [h]

theorem length_eq (h : c.Absorbs errors refusals replies) : replies.length = errors + refusals := by
  obtain ⟨hsurvived, rfl, rfl⟩ := h
  induction replies with
  | nil => rfl
  | cons reply replies ih =>
    obtain ⟨hreply, hreplies⟩ := List.forall_mem_cons.mp hsurvived
    rw [List.length_cons, ih hreplies]
    rcases hreply with hserver | hrefusal
    · rw [List.countP_cons_of_pos hserver, List.countP_cons_of_neg (not_refusal_of_serverError hserver)]
      omega
    · rw [List.countP_cons_of_pos hrefusal,
        List.countP_cons_of_neg fun hserver => not_refusal_of_serverError hserver hrefusal]
      omega

end Absorbs

/-! ## What decides -/

/-- The request has had the token: from the slot, or because it was fetched. -/
def Obtained (history : Exchange.History) (token : String) : Prop :=
  ⟨.readSlot, some token⟩ ∈ history ∨ ∃ reply ∈ authReplies history, tokenOfReply reply = .ok token

variable (c) in
/-- The reply that decides a request after so many server errors and refusals; it is missing when a token
cannot be had or cannot be sent. -/
inductive Decides (history : Exchange.History) (errors refusals : Nat) :
    List (Except String Reply) → Except ProviderFault Response → Prop
  | settled {token : String} (h : Obtained history token) {last : List (Except String Reply)}
      {r : Except ProviderFault Response} (hsettles : c.Settles token (errors = c.retry.maxRetries) last r) :
      Decides history errors refusals last r
  | refused (reply : Reply) (hrefusal : c.isRefusal reply = true) (h : refusals = 1) :
      Decides history errors refusals [.ok reply] (.error (c.refusedAgain reply.status))
  | noToken {reply : Except String Reply} (hmem : reply ∈ authReplies history) {reason : String}
      (h : tokenOfReply reply = .error reason) : Decides history errors refusals [] (.error (c.refused reason))

variable (c) in
/-- How the replies decide what the caller of a request gets, and how many requests there are. -/
structure Decided (history : Exchange.History) (r : Except ProviderFault Response) : Prop where
  decides : ∃ (errors refusals : Nat) (replies : List Reply) (last : List (Except String Reply)),
    errors ≤ c.retry.maxRetries ∧ refusals ≤ 1 ∧ c.Absorbs errors refusals replies ∧
      apiReplies history = replies.map .ok ++ last ∧ c.Decides history errors refusals last r
  /-- Without a token that is needed nothing more is asked of the provider. -/
  failedFetch : ∀ first request reply rest reason, history = first ++ ⟨.authenticate request, reply⟩ :: rest →
    tokenOfReply reply = .error reason →
      r = .error (c.refused reason) ∧ apiReplies rest = [] ∧ authReplies rest = []
  calls_le : (apiReplies history).length ≤ c.retry.maxRetries + 2
  fetches_le : (authReplies history).length ≤ 2
  fetches_le_of_held : ∀ token rest, history = ⟨.readSlot, some token⟩ :: rest → (authReplies history).length ≤ 1
  answered : ∀ response, r = .ok response →
    Http.isServerError response.status = false ∧ response.status ≠ 401 ∧
      (c.refreshOnForbidden = true → response.status ≠ 403)

theorem Settles.length_le {spent : Prop} {last : List (Except String Reply)} {r : Except ProviderFault Response}
    (h : c.Settles token spent last r) : last.length ≤ 1 := by
  cases h with
  | unsendable htoken => exact Nat.zero_le _
  | _ => exact Nat.le_refl _

theorem responseOf_status {reply : Reply} {response : Response} (h : c.responseOf reply = .ok response) :
    response.status = reply.status := by
  unfold responseOf at h
  rcases hbody : reply.body with reason | bytes <;> rw [hbody] at h
  · cases h
  · cases h
    rfl

theorem Settles.answered_of_ok {spent : Prop} {last : List (Except String Reply)} {response : Response}
    (h : c.Settles token spent last (.ok response)) : c.verdict response.status = .answered := by
  generalize hr : (.ok response : Except ProviderFault Response) = r at h
  cases h with
  | answered reply hserver hrefusal =>
    rw [responseOf_status hr.symm]
    exact verdict_answered_iff.mpr ⟨hserver, hrefusal⟩
  | _ => cases hr

theorem Decides.length_le {errors refusals : Nat} {last : List (Except String Reply)}
    {r : Except ProviderFault Response} (h : c.Decides history errors refusals last r) : last.length ≤ 1 := by
  cases h with
  | settled hobtained hsettles => exact hsettles.length_le
  | refused reply hrefusal hrefusals => exact Nat.le_refl _
  | noToken hmem hreason => exact Nat.zero_le _

theorem not_refused_of_answered {status : Nat} (h : c.verdict status = .answered) :
    Http.isServerError status = false ∧ status ≠ 401 ∧ (c.refreshOnForbidden = true → status ≠ 403) := by
  unfold verdict at h
  split_ifs at h with hserver hrefused
  rw [not_or, not_and] at hrefused
  exact ⟨eq_false_of_ne_true hserver, hrefused⟩

theorem Decides.answered_of_ok {errors refusals : Nat} {last : List (Except String Reply)} {response : Response}
    (h : c.Decides history errors refusals last (.ok response)) : c.verdict response.status = .answered := by
  cases h with
  | settled hobtained hsettles => exact hsettles.answered_of_ok

/-! ## The whole way -/

theorem Round.settles {r : Except ProviderFault Response} (h : c.Round errand token left history (.settled r)) :
    ∃ (errors : Nat) (replies : List Reply) (last : List (Except String Reply)), errors ≤ left ∧
      c.Absorbs errors 0 replies ∧ apiReplies history = replies.map .ok ++ last ∧
        c.Settles token (errors = left) last r := by
  obtain ⟨forgiven, last, hreplies, hforgiven, hle, hsettles⟩ := h.replies
  exact ⟨forgiven.length, forgiven, last, hle, .of_serverErrors hforgiven, hreplies, hsettles⟩

theorem Round.refuses {left' status : Nat} (h : c.Round errand token left history (.refused left' status)) :
    ∃ (errors : Nat) (replies : List Reply) (reply : Reply), errors + left' = left ∧
      c.Absorbs errors 0 replies ∧ apiReplies history = replies.map .ok ++ [.ok reply] ∧
        reply.status = status ∧ c.isRefusal reply = true := by
  obtain ⟨forgiven, _, hreplies, hforgiven, hsum, reply, rfl, rfl, hrefusal⟩ := h.replies
  exact ⟨forgiven.length, forgiven, reply, hsum, .of_serverErrors hforgiven, hreplies, rfl, hrefusal⟩

theorem Round.absorbs {left' status : Nat} (h : c.Round errand token left history (.refused left' status)) :
    ∃ (errors : Nat) (replies : List Reply), errors + left' = left ∧ c.Absorbs errors 1 replies ∧
      apiReplies history = replies.map .ok := by
  obtain ⟨errors, replies, reply, hsum, habsorbs, hreplies, -, hrefusal⟩ := h.refuses
  refine ⟨errors, replies ++ [reply], hsum, habsorbs.append (.of_refused hrefusal), ?_⟩
  rw [hreplies, List.map_append]
  rfl

/-- Every token that was asked for in the history was got. -/
def AllFetched (history : Exchange.History) : Prop :=
  ∀ reply ∈ authReplies history, ∃ token, tokenOfReply reply = .ok token

theorem AllFetched.append {first rest : Exchange.History} (h : AllFetched first) (h' : AllFetched rest) :
    AllFetched (first ++ rest) := by
  intro reply hmem
  rw [Exchange.authReplies_append] at hmem
  exact (List.mem_append.mp hmem).elim (h reply) (h' reply)

theorem AllFetched.of_nil (h : authReplies history = []) : AllFetched history := by
  intro reply hmem
  rw [h] at hmem
  cases hmem

theorem Fetch.allFetched {fetch : Fetch} (h : fetch.token = .ok token) : AllFetched (fetch.history c) := by
  intro reply hmem
  rw [Fetch.authReplies_history, List.mem_singleton] at hmem
  rw [hmem]
  exact ⟨token, h⟩

theorem Opening.allFetched {o : Opening} (h : o.token = .ok token) : AllFetched (o.history c) := by
  rcases o with held | fetch
  · exact .of_nil rfl
  · exact Fetch.allFetched (c := c) h

theorem AllFetched.not_failed {first rest : Exchange.History} {request : AuthRequest}
    {reply : Except String Reply} {reason : String}
    (h : AllFetched (first ++ ⟨.authenticate request, reply⟩ :: rest)) : tokenOfReply reply ≠ .error reason := by
  have hmem : reply ∈ authReplies (first ++ ⟨.authenticate request, reply⟩ :: rest) := by
    rw [Exchange.authReplies_append]
    exact List.mem_append_right _ List.mem_cons_self
  obtain ⟨token, htoken⟩ := h reply hmem
  rw [htoken]
  exact nofun

theorem Fetch.history_of_failed {fetch : Fetch} {reason : String} (h : fetch.token = .error reason) :
    fetch.history c = [⟨.now, fetch.now⟩, ⟨.fresh, fetch.id⟩] ++
      ⟨.authenticate ⟨c.base ++ c.authPath, c.authBody fetch.now, fetch.id.text⟩, fetch.reply⟩ ::
        [⟨.clearSlot, ()⟩] := by
  unfold Fetch.history
  rw [h]
  rfl

theorem Opening.obtained {o : Opening} (h : o.token = .ok token) (rest : Exchange.History) :
    Obtained (o.history c ++ rest) token := by
  rcases o with held | fetch
  · cases h
    exact .inl List.mem_cons_self
  · refine .inr ⟨fetch.reply, ?_, h⟩
    rw [Exchange.authReplies_append]
    refine List.mem_append_left _ ?_
    change fetch.reply ∈ authReplies (fetch.history c)
    rw [Fetch.authReplies_history]
    exact List.mem_singleton_self _

/-- A history has no other failed fetch than one between entries without failed fetches. -/
theorem eq_of_failed {first rest first' rest' : Exchange.History} {request request' : AuthRequest}
    {reply reply' : Except String Reply} {reason : String} (hfirst : AllFetched first) (hrest : AllFetched rest)
    (h : first ++ ⟨.authenticate request, reply⟩ :: rest = first' ++ ⟨.authenticate request', reply'⟩ :: rest')
    (hfailed : tokenOfReply reply' = .error reason) : reply' = reply ∧ rest' = rest := by
  rcases List.append_eq_append_iff.mp h with ⟨between, rfl, hbetween⟩ | ⟨between, rfl, hbetween⟩
  · rcases between with _ | ⟨entry, between⟩
    · cases hbetween
      exact ⟨rfl, rfl⟩
    · obtain ⟨-, rfl⟩ := List.cons.inj hbetween
      exact absurd hfailed hrest.not_failed
  · rcases between with _ | ⟨entry, between⟩
    · cases hbetween
      exact ⟨rfl, rfl⟩
    · obtain ⟨rfl, -⟩ := List.cons.inj hbetween
      exact absurd hfailed hfirst.not_failed

theorem failedFetch_of_last {first : Exchange.History} (hfirst : AllFetched first) {fetch : Fetch} {reason : String}
    (hfetch : fetch.token = .error reason) {first' rest' : Exchange.History} {request : AuthRequest}
    {reply : Except String Reply} {reason' : String}
    (h : first ++ fetch.history c = first' ++ ⟨.authenticate request, reply⟩ :: rest')
    (hfailed : tokenOfReply reply = .error reason') :
    reason' = reason ∧ apiReplies rest' = [] ∧ authReplies rest' = [] := by
  rw [Fetch.history_of_failed hfetch, ← List.append_assoc] at h
  obtain ⟨rfl, rfl⟩ := eq_of_failed (hfirst.append (.of_nil rfl)) (.of_nil rfl) h hfailed
  refine ⟨?_, rfl, rfl⟩
  have hreason : Except.error reason' = (Except.error reason : Except String String) := hfailed.symm.trans hfetch
  cases hreason
  rfl

theorem Opening.length_authReplies_le (o : Opening) : (authReplies (o.history c)).length ≤ 1 := by
  rcases o with held | fetch
  · exact Nat.zero_le _
  · exact Nat.le_of_eq (congrArg List.length (Fetch.authReplies_history c fetch))

theorem Opening.authReplies_of_held {o : Opening} {rest rest' : Exchange.History}
    (h : o.history c ++ rest = ⟨.readSlot, some token⟩ :: rest') : authReplies (o.history c) = [] := by
  rcases o with held | fetch
  · rfl
  · cases h

namespace Sent
variable {r : Except ProviderFault Response}

theorem decides (h : c.Sent errand history r) :
    ∃ (errors refusals : Nat) (replies : List Reply) (last : List (Except String Reply)),
      errors ≤ c.retry.maxRetries ∧ refusals ≤ 1 ∧ c.Absorbs errors refusals replies ∧
        apiReplies history = replies.map .ok ++ last ∧ c.Decides history errors refusals last r := by
  cases h with
  | @unopened o reason ho =>
    rcases o with held | fetch
    · cases ho
    have hmem : fetch.reply ∈ authReplies ((Opening.fetched fetch).history c) := by
      rw [show authReplies ((Opening.fetched fetch).history c) = [fetch.reply] from Fetch.authReplies_history c fetch]
      exact List.mem_singleton_self _
    refine ⟨0, 0, [], [], Nat.zero_le _, Nat.zero_le _, .nil, ?_, .noToken hmem ho⟩
    exact Opening.apiReplies_history c _
  | @settled o token ho history r hround =>
    obtain ⟨errors, replies, last, hle, habsorbs, hreplies, hsettles⟩ := hround.settles
    refine ⟨errors, 0, replies, last, hle, Nat.zero_le _, habsorbs, ?_, .settled (Opening.obtained ho _) hsettles⟩
    simp [hreplies]
  | @unrenewed o token ho history left status hround fetch reason hfetch =>
    obtain ⟨errors, replies, hsum, habsorbs, hreplies⟩ := hround.absorbs
    have hle : errors ≤ c.retry.maxRetries := Nat.le.intro hsum
    refine ⟨errors, 1, replies, [], hle, Nat.le_refl _, habsorbs, ?_, .noToken ?_ hfetch⟩
    · simp [hreplies]
    · simp
  | @renewed o token ho history left status hround fetch token' hfetch history' r hround' =>
    obtain ⟨errors, replies, hsum, habsorbs, hreplies⟩ := hround.absorbs
    obtain ⟨errors', replies', last, hle', habsorbs', hreplies', hsettles⟩ := hround'.settles
    -- The second round begins with what the first one has left of the budget.
    have hspent : (errors' = left) = (errors + errors' = c.retry.maxRetries) := propext (by omega)
    rw [hspent] at hsettles
    refine ⟨errors + errors', 1, replies ++ replies', last, by omega, Nat.le_refl _, habsorbs.append habsorbs',
      ?_, .settled (.inr ⟨fetch.reply, ?_, hfetch⟩) hsettles⟩
    · simp [hreplies, hreplies']
    · simp
  | @refused o token ho history left status hround fetch token' hfetch history' left' status' hround' =>
    obtain ⟨errors, replies, hsum, habsorbs, hreplies⟩ := hround.absorbs
    obtain ⟨errors', replies', reply, hsum', habsorbs', hreplies', rfl, hrefusal⟩ := hround'.refuses
    refine ⟨errors + errors', 1, replies ++ replies', [.ok reply], by omega, Nat.le_refl _,
      habsorbs.append habsorbs', ?_, .refused reply hrefusal rfl⟩
    simp [hreplies, hreplies', show apiReplies [⟨.clearSlot, ()⟩] = [] from rfl]

/-- After the first token at most one more is asked for. -/
theorem opens (h : c.Sent errand history r) :
    ∃ (o : Opening) (rest : Exchange.History), history = o.history c ++ rest ∧ (authReplies rest).length ≤ 1 := by
  cases h with
  | unopened o ho => exact ⟨o, [], (List.append_nil _).symm, Nat.zero_le _⟩
  | settled o ho hround => exact ⟨o, _, rfl, by simp [hround.authReplies_eq]⟩
  | unrenewed o ho hround fetch hfetch => exact ⟨o, _, rfl, by simp [hround.authReplies_eq]⟩
  | renewed o ho hround fetch hfetch hround' =>
    exact ⟨o, _, rfl, by simp [hround.authReplies_eq, hround'.authReplies_eq]⟩
  | refused o ho hround fetch hfetch hround' =>
    refine ⟨o, _, rfl, ?_⟩
    simp [hround.authReplies_eq, hround'.authReplies_eq, show authReplies [⟨.clearSlot, ()⟩] = [] from rfl]

theorem allFetched_or (h : c.Sent errand history r) :
    AllFetched history ∨
      ∃ (first : Exchange.History) (fetch : Fetch) (reason : String), history = first ++ fetch.history c ∧
        AllFetched first ∧ fetch.token = .error reason ∧ r = .error (c.refused reason) := by
  cases h with
  | @unopened o reason ho =>
    rcases o with held | fetch
    · cases ho
    exact .inr ⟨[⟨.readSlot, none⟩], fetch, reason, rfl, .of_nil rfl, ho, rfl⟩
  | settled o ho hround => exact .inl ((Opening.allFetched ho).append (.of_nil hround.authReplies_eq))
  | @unrenewed o token ho history left status hround fetch reason hfetch =>
    refine .inr ⟨o.history c ++ (history ++ c.renewing), fetch, reason, by simp, ?_, hfetch, rfl⟩
    exact (Opening.allFetched ho).append ((AllFetched.of_nil hround.authReplies_eq).append (.of_nil rfl))
  | renewed o ho hround fetch hfetch hround' =>
    refine .inl ((Opening.allFetched ho).append ((AllFetched.of_nil hround.authReplies_eq).append ?_))
    exact (AllFetched.of_nil rfl).append ((Fetch.allFetched hfetch).append (.of_nil hround'.authReplies_eq))
  | refused o ho hround fetch hfetch hround' =>
    refine .inl ((Opening.allFetched ho).append ((AllFetched.of_nil hround.authReplies_eq).append ?_))
    refine (AllFetched.of_nil rfl).append ((Fetch.allFetched hfetch).append ?_)
    exact (AllFetched.of_nil hround'.authReplies_eq).append (.of_nil rfl)

theorem decided (h : c.Sent errand history r) : c.Decided history r where
  decides := h.decides
  failedFetch := by
    intro first request reply rest reason heq hfailed
    rcases h.allFetched_or with hall | ⟨first', fetch, reason', hhistory, hfirst, hfetch, rfl⟩
    · rw [heq] at hall
      exact absurd hfailed hall.not_failed
    · obtain ⟨rfl, hrest⟩ := failedFetch_of_last hfirst hfetch (hhistory.symm.trans heq) hfailed
      exact ⟨rfl, hrest⟩
  calls_le := by
    obtain ⟨errors, refusals, replies, last, herrors, hrefusals, habsorbs, hreplies, hlast⟩ := h.decides
    have hlength : replies.length = errors + refusals := habsorbs.length_eq
    have hle : last.length ≤ 1 := hlast.length_le
    rw [hreplies, List.length_append, List.length_map]
    omega
  fetches_le := by
    obtain ⟨o, rest, rfl, hrest⟩ := h.opens
    have hopening : (authReplies (o.history c)).length ≤ 1 := o.length_authReplies_le
    rw [Exchange.authReplies_append, List.length_append]
    omega
  fetches_le_of_held := by
    intro token rest' heq
    obtain ⟨o, rest, rfl, hrest⟩ := h.opens
    rw [Exchange.authReplies_append, Opening.authReplies_of_held heq]
    exact hrest
  answered := by
    rintro response rfl
    obtain ⟨errors, refusals, replies, last, -, -, -, -, hlast⟩ := h.decides
    exact not_refused_of_answered hlast.answered_of_ok

end Sent

/-- **The first reply that is not absorbed decides.** Whatever the provider answers, a request comes to its end,
in one way, and up to `maxRetries` server errors and one refusal are survived in any order. -/
theorem send_decided (c : ProviderClient) (errand : Errand) (respond : Interface.Responder Exchange) :
    ∃ history r, (Answered respond [] history ∧ (c.send errand).run.Yields history r) ∧ c.Decided history r ∧
      ∀ history' r', Answered respond [] history' → (c.send errand).run.Yields history' r' →
        history' = history ∧ r' = r := by
  obtain ⟨history, r, hanswered, hyields⟩ := (c.send errand).run.exists_answered respond []
  refine ⟨history, r, ⟨hanswered, hyields⟩, (sent_of_yields hyields).decided, ?_⟩
  intro history' r' hanswered' hyields'
  exact hyields.unique hanswered hyields' hanswered'

end ProviderClient

end WalletTopUp
