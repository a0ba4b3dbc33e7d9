import WalletTopUp.Proofs.History
import WalletTopUp.Proofs.Text.Utf8
import WalletTopUp.Provider.Send

/-!
# The course of a request

Every history of `ProviderClient.send` is put together from a few pieces. It opens with the token of the slot
or with one that is fetched (`Opening`). The attempts with one token are a `Round`: server errors that are
forgiven, and at the end something that settles the matter or a refusal of the token. After the first refusal
the token is dropped and another one is fetched (`Fetch`), and a second round decides. `yields_send_iff` says
so with all questions, answers and results (`Sent`), so that no later proof opens the loop again.
-/

namespace WalletTopUp

namespace Exchange
variable {ε α : Type} {history : Exchange.History} {r : Except ProviderFault α}

theorem yields_step_bind_iff {q : Question} {f : Answer q → Exchanged α} :
    (step q >>= f).run.Yields history r ↔
      ∃ answer rest, history = ⟨q, answer⟩ :: rest ∧ (f answer).run.Yields rest r :=
  Attempt.yields_perform_bind_iff

end Exchange

def Reply.isServerError (reply : Reply) : Bool := 500 ≤ reply.status && reply.status < 600

namespace ProviderClient
variable {α : Type} (c : ProviderClient) (errand : Errand)

/-- The token is refused: by 401, and by 403 where an expired token is reported by that status as well. -/
def isRefusal (reply : Reply) : Bool := reply.status = 401 || c.refreshOnForbidden && reply.status = 403

section
variable {c} {reply : Reply}

theorem verdict_serverError_iff : c.verdict reply.status = .serverError ↔ reply.isServerError = true := by
  unfold verdict
  split
  · next hserver => exact iff_of_true rfl hserver
  · next hserver =>
    refine iff_of_false ?_ hserver
    split <;> nofun

theorem verdict_refused_iff : c.verdict reply.status = .refused ↔ c.isRefusal reply = true := by
  have hrefusal : c.isRefusal reply = true ↔
      reply.status = 401 ∨ c.refreshOnForbidden = true ∧ reply.status = 403 := by
    simp [isRefusal]
  rw [hrefusal, verdict]
  split
  · next hserver =>
    simp only [Http.isServerError, Bool.and_eq_true, decide_eq_true_eq] at hserver
    simp only [reduceCtorEq, false_iff]
    omega
  · split
    · next hrefused => exact iff_of_true rfl hrefused
    · next hrefused => exact iff_of_false nofun hrefused

theorem not_refusal_of_serverError (h : reply.isServerError = true) : ¬ c.isRefusal reply = true := by
  rw [← verdict_refused_iff, verdict_serverError_iff.mpr h]
  nofun

theorem verdict_answered_iff :
    c.verdict reply.status = .answered ↔ reply.isServerError = false ∧ c.isRefusal reply = false := by
  rw [← Bool.not_eq_true, ← Bool.not_eq_true, ← verdict_serverError_iff (c := c), ← verdict_refused_iff]
  rcases c.verdict reply.status with _ | _ | _ <;> simp

end

def request (token : String) : ApiRequest := ⟨c.base ++ errand.path, errand, token⟩

/-- What the caller gets of a reply that the provider has given. -/
def responseOf (reply : Reply) : Except ProviderFault Response :=
  match reply.body with
  | .ok bytes => .ok ⟨reply.status, bodyText bytes⟩
  | .error reason => .error (.transport c.method reason)

theorem bodyText_bytes {s : String} (h : s.toList.head? ≠ some '\ufeff') : bodyText (Text.bytes s) = s := by
  rw [bodyText, Text.decodeLossy_bytes]
  split
  · next rest hmarked =>
    rw [hmarked] at h
    exact absurd rfl h
  · exact String.ofList_toList

/-- A byte order mark before a text is dropped. -/
theorem bodyText_marked (s : String) : bodyText (Text.bytes ("\ufeff" ++ s)) = s := by
  have hmarked : ("\ufeff" ++ s).toList = '\ufeff' :: s.toList := String.toList_append
  rw [bodyText, Text.decodeLossy_bytes, hmarked]
  exact String.ofList_toList

/-! ## The parts of the way -/

theorem attempt_bind (token : String) (f : Reply → Exchanged α) :
    c.attempt errand token >>= f =
      if headerBytes? token = none then throw (.transport c.method unsendable)
      else Exchange.step (.call (c.request errand token)) >>= fun
        | .ok reply => f reply
        | .error reason => throw (.transport c.method reason) := by
  unfold attempt
  rcases headerBytes? token with _ | bytes
  · rfl
  · refine congrArg (Program.ask (I := Exchange) (.call (c.request errand token))) (funext fun answer => ?_)
    rcases answer with reason | reply <;> rfl

theorem yields_readBody_iff {reply : Reply} {history : Exchange.History}
    {r : Except ProviderFault Response} :
    (c.readBody reply).run.Yields history r ↔ history = [] ∧ r = c.responseOf reply := by
  unfold readBody responseOf
  rcases reply.body with reason | bytes
  · exact Attempt.yields_throw_iff
  · exact Attempt.yields_pure_iff

/-- The entries of a pause of the length that was drawn, when `left` more server errors will be forgiven. -/
def pausing (left : Nat) (drawn : Fin 1000) : Exchange.History :=
  [⟨.count (.providerRetries c.method .serverError), ()⟩,
    ⟨.pause (c.retry.backoff (c.retry.maxRetries - (left + 1)) drawn), ()⟩]

/-- The entries between a server error that is forgiven and the next attempt. -/
def waiting (left : Nat) (drawn : Fin 1000) : Exchange.History :=
  if c.retry.jitter then ⟨.draw, drawn⟩ :: c.pausing left drawn else c.pausing left RetryPolicy.noDraw

theorem yields_pausing_iff {left : Nat} {drawn : Fin 1000} {f : Unit → Exchanged α}
    {history : Exchange.History} {r : Except ProviderFault α} :
    (Exchange.step (.count (.providerRetries c.method .serverError)) >>= fun _ =>
        Exchange.step (.pause (c.retry.backoff (c.retry.maxRetries - (left + 1)) drawn)) >>= f).run.Yields
      history r ↔
      ∃ rest, history = c.pausing left drawn ++ rest ∧ (f ()).run.Yields rest r := by
  rw [Exchange.yields_step_bind_iff]
  constructor
  · rintro ⟨⟨⟩, _, rfl, h⟩
    obtain ⟨⟨⟩, rest, rfl, hrest⟩ := Exchange.yields_step_bind_iff.mp h
    exact ⟨rest, rfl, hrest⟩
  · rintro ⟨rest, rfl, h⟩
    refine ⟨(), _, rfl, ?_⟩
    exact Exchange.yields_step_bind_iff.mpr ⟨(), rest, rfl, h⟩

theorem yields_waitForServer_bind_iff {left : Nat} {f : Unit → Exchanged α} {history : Exchange.History}
    {r : Except ProviderFault α} :
    (c.waitForServer left >>= f).run.Yields history r ↔
      ∃ drawn rest, history = c.waiting left drawn ++ rest ∧ (f ()).run.Yields rest r := by
  unfold waitForServer
  by_cases hjitter : c.retry.jitter
  · have hwaiting : c.waiting left = fun drawn => ⟨.draw, drawn⟩ :: c.pausing left drawn :=
      funext fun _ => if_pos hjitter
    rw [if_pos hjitter, hwaiting]
    change (Exchange.step .draw >>= fun drawn =>
      Exchange.step (.count (.providerRetries c.method .serverError)) >>= fun _ =>
        Exchange.step (.pause (c.retry.backoff (c.retry.maxRetries - (left + 1)) drawn)) >>= f).run.Yields _ _ ↔ _
    rw [Exchange.yields_step_bind_iff]
    constructor
    · rintro ⟨drawn, _, rfl, h⟩
      obtain ⟨rest, rfl, hrest⟩ := c.yields_pausing_iff.mp h
      exact ⟨drawn, rest, rfl, hrest⟩
    · rintro ⟨drawn, rest, rfl, h⟩
      exact ⟨drawn, _, rfl, c.yields_pausing_iff.mpr ⟨rest, rfl, h⟩⟩
  · have hwaiting : c.waiting left = fun _ => c.pausing left RetryPolicy.noDraw :=
      funext fun _ => if_neg hjitter
    rw [if_neg hjitter, hwaiting]
    refine c.yields_pausing_iff.trans ?_
    simp

/-! ## Attempts with one token -/

/-- How the attempts with one token come to an end. -/
inductive Halt where
  | settled (r : Except ProviderFault Response)
  /-- The token is refused by a status when `left` more server errors would be forgiven. -/
  | refused (left status : Nat)

/-- The histories of the attempts with one token and `left` server errors that will be forgiven, each with its
end. -/
inductive Round (token : String) : (left : Nat) → Exchange.History → Halt → Prop
  | unsendable (left : Nat) (h : headerBytes? token = none) :
      Round token left [] (.settled (.error (.transport c.method unsendable)))
  | unreachable (left : Nat) (h : headerBytes? token ≠ none) (reason : String) :
      Round token left [⟨.call (c.request errand token), .error reason⟩]
        (.settled (.error (.transport c.method reason)))
  | answered (left : Nat) (h : headerBytes? token ≠ none) (reply : Reply)
      (hserver : reply.isServerError = false) (hrefusal : c.isRefusal reply = false) :
      Round token left [⟨.call (c.request errand token), .ok reply⟩] (.settled (c.responseOf reply))
  | refused (left : Nat) (h : headerBytes? token ≠ none) (reply : Reply)
      (hrefusal : c.isRefusal reply = true) :
      Round token left [⟨.call (c.request errand token), .ok reply⟩] (.refused left reply.status)
  | exhausted (h : headerBytes? token ≠ none) (reply : Reply) (hserver : reply.isServerError = true) :
      Round token 0 [⟨.call (c.request errand token), .ok reply⟩]
        (.settled (.error (.server c.method reply.status)))
  | forgiven (left : Nat) (h : headerBytes? token ≠ none) (reply : Reply)
      (hserver : reply.isServerError = true) (drawn : Fin 1000) {rest : Exchange.History}
      {halt : Halt} (hrest : Round token left rest halt) :
      Round token (left + 1)
        (⟨.call (c.request errand token), .ok reply⟩ :: (c.waiting left drawn ++ rest)) halt

variable {c errand}

/-- How a request goes on after the attempts with one token. -/
def Halt.Continues (onRefusal : (left status : Nat) → Exchanged Response) (history : Exchange.History)
    (r : Except ProviderFault Response) : Halt → Prop
  | .settled r' => history = [] ∧ r = r'
  | .refused left status => (onRefusal left status).run.Yields history r

/-- What a single attempt leads to, with what follows a reply left open. -/
theorem yields_attempt_bind_iff {token : String} {f : Reply → Exchanged α} {history : Exchange.History}
    {r : Except ProviderFault α} :
    (c.attempt errand token >>= f).run.Yields history r ↔
      (headerBytes? token = none ∧ history = [] ∧ r = .error (.transport c.method unsendable)) ∨
      headerBytes? token ≠ none ∧
        ((∃ reason, history = [⟨.call (c.request errand token), .error reason⟩] ∧
            r = .error (.transport c.method reason)) ∨
          ∃ reply rest, history = ⟨.call (c.request errand token), .ok reply⟩ :: rest ∧
            (f reply).run.Yields rest r) := by
  rw [attempt_bind]
  by_cases htoken : headerBytes? token = none
  · rw [if_pos htoken]
    refine Attempt.yields_throw_iff.trans ?_
    simp [htoken]
  · rw [if_neg htoken, Exchange.yields_step_bind_iff]
    simp only [htoken, false_and, false_or, ne_eq, not_false_eq_true, true_and]
    constructor
    · rintro ⟨reason | reply, rest, rfl, h⟩
      · obtain ⟨rfl, rfl⟩ := Attempt.yields_throw_iff.mp h
        exact .inl ⟨reason, rfl, rfl⟩
      · exact .inr ⟨reply, rest, rfl, h⟩
    · rintro (⟨reason, rfl, rfl⟩ | ⟨reply, rest, rfl, h⟩)
      · exact ⟨.error reason, [], rfl, Attempt.yields_throw_iff.mpr ⟨rfl, rfl⟩⟩
      · exact ⟨.ok reply, rest, rfl, h⟩

theorem attempts_eq (onRefusal : (left status : Nat) → Exchanged Response) (token : String) (left : Nat) :
    c.attempts errand onRefusal token left = c.attempt errand token >>= fun reply =>
      match c.verdict reply.status with
      | .answered => c.readBody reply
      | .refused => onRefusal left reply.status
      | .serverError =>
        match left with
        | 0 => throw (.server c.method reply.status)
        | left + 1 => c.waitForServer left >>= fun _ => c.attempts errand onRefusal token left := by
  cases left <;> rfl

section
variable {onRefusal : (left status : Nat) → Exchanged Response} {token : String} {left : Nat}
  {history : Exchange.History} {r : Except ProviderFault Response}

theorem round_of_yields (h : (c.attempts errand onRefusal token left).run.Yields history r) :
    ∃ first rest halt, c.Round errand token left first halt ∧ history = first ++ rest ∧
      halt.Continues onRefusal rest r := by
  induction left generalizing history with
  | zero =>
    rw [attempts_eq, yields_attempt_bind_iff] at h
    rcases h with ⟨htoken, rfl, rfl⟩ | ⟨htoken, ⟨reason, rfl, rfl⟩ | ⟨reply, rest, rfl, h⟩⟩
    · exact ⟨[], [], _, .unsendable 0 htoken, rfl, rfl, rfl⟩
    · exact ⟨_, [], _, .unreachable 0 htoken reason, rfl, rfl, rfl⟩
    rcases hverdict : c.verdict reply.status with _ | _ | _ <;> rw [hverdict] at h
    · obtain ⟨rfl, rfl⟩ := c.yields_readBody_iff.mp h
      obtain ⟨hserver, hrefusal⟩ := verdict_answered_iff.mp hverdict
      exact ⟨_, [], _, .answered 0 htoken reply hserver hrefusal, rfl, rfl, rfl⟩
    · obtain ⟨rfl, rfl⟩ := Attempt.yields_throw_iff.mp h
      exact ⟨_, [], _, .exhausted htoken reply (verdict_serverError_iff.mp hverdict), rfl, rfl, rfl⟩
    · exact ⟨_, rest, _, .refused 0 htoken reply (verdict_refused_iff.mp hverdict), rfl, h⟩
  | succ left ih =>
    rw [attempts_eq, yields_attempt_bind_iff] at h
    rcases h with ⟨htoken, rfl, rfl⟩ | ⟨htoken, ⟨reason, rfl, rfl⟩ | ⟨reply, rest, rfl, h⟩⟩
    · exact ⟨[], [], _, .unsendable _ htoken, rfl, rfl, rfl⟩
    · exact ⟨_, [], _, .unreachable _ htoken reason, rfl, rfl, rfl⟩
    rcases hverdict : c.verdict reply.status with _ | _ | _ <;> rw [hverdict] at h
    · obtain ⟨rfl, rfl⟩ := c.yields_readBody_iff.mp h
      obtain ⟨hserver, hrefusal⟩ := verdict_answered_iff.mp hverdict
      exact ⟨_, [], _, .answered _ htoken reply hserver hrefusal, rfl, rfl, rfl⟩
    · obtain ⟨drawn, rest, rfl, hrest⟩ := c.yields_waitForServer_bind_iff.mp h
      obtain ⟨first, rest, halt, hround, rfl, hcontinues⟩ := ih hrest
      have hserver : reply.isServerError = true := verdict_serverError_iff.mp hverdict
      exact ⟨_, rest, halt, .forgiven left htoken reply hserver drawn hround, by simp, hcontinues⟩
    · exact ⟨_, rest, _, .refused _ htoken reply (verdict_refused_iff.mp hverdict), rfl, h⟩

theorem Round.yields {first : Exchange.History} {halt : Halt} (hround : c.Round errand token left first halt)
    (h : halt.Continues onRefusal history r) :
    (c.attempts errand onRefusal token left).run.Yields (first ++ history) r := by
  induction hround with
  | unsendable left htoken =>
    obtain ⟨rfl, rfl⟩ := h
    rw [attempts_eq, yields_attempt_bind_iff]
    exact .inl ⟨htoken, rfl, rfl⟩
  | unreachable left htoken reason =>
    obtain ⟨rfl, rfl⟩ := h
    rw [attempts_eq, yields_attempt_bind_iff]
    exact .inr ⟨htoken, .inl ⟨reason, rfl, rfl⟩⟩
  | answered left htoken reply hserver hrefusal =>
    obtain ⟨rfl, rfl⟩ := h
    rw [attempts_eq, yields_attempt_bind_iff]
    refine .inr ⟨htoken, .inr ⟨reply, [], rfl, ?_⟩⟩
    rw [verdict_answered_iff.mpr ⟨hserver, hrefusal⟩]
    exact c.yields_readBody_iff.mpr ⟨rfl, rfl⟩
  | refused left htoken reply hrefusal =>
    rw [attempts_eq, yields_attempt_bind_iff]
    refine .inr ⟨htoken, .inr ⟨reply, history, rfl, ?_⟩⟩
    rw [verdict_refused_iff.mpr hrefusal]
    exact h
  | exhausted htoken reply hserver =>
    obtain ⟨rfl, rfl⟩ := h
    rw [attempts_eq, yields_attempt_bind_iff]
    refine .inr ⟨htoken, .inr ⟨reply, [], rfl, ?_⟩⟩
    rw [verdict_serverError_iff.mpr hserver]
    exact Attempt.yields_throw_iff.mpr ⟨rfl, rfl⟩
  | forgiven left htoken reply hserver drawn hrest ih =>
    rw [attempts_eq, yields_attempt_bind_iff]
    refine .inr ⟨htoken, .inr ⟨reply, _, rfl, ?_⟩⟩
    rw [verdict_serverError_iff.mpr hserver]
    exact c.yields_waitForServer_bind_iff.mpr ⟨drawn, _, List.append_assoc _ _ _, ih h⟩

theorem Round.yields_of_settled (hround : c.Round errand token left history (.settled r)) :
    (c.attempts errand onRefusal token left).run.Yields history r := by
  have hyields : (c.attempts errand onRefusal token left).run.Yields (history ++ []) r :=
    hround.yields ⟨rfl, rfl⟩
  rwa [List.append_nil] at hyields

end

/-! ## Fetching a token -/

structure Fetch where
  now : Instant
  id : Uuid
  reply : Except String Reply

namespace Fetch

/-- The token that was got, or why there is none. -/
def token (f : Fetch) : Except String String := tokenOfReply f.reply

def keeping (c : ProviderClient) : Except String String → Exchange.History
  | .ok token => [⟨.fillSlot token, ()⟩, ⟨.count (.tokenRefreshes c.method), ()⟩]
  | .error _ => [⟨.clearSlot, ()⟩]

/-- The entries of fetching a token. -/
def history (c : ProviderClient) (f : Fetch) : Exchange.History :=
  ⟨.now, f.now⟩ :: ⟨.fresh, f.id⟩ ::
    ⟨.authenticate ⟨c.base ++ c.authPath, c.authBody f.now, f.id.text⟩, f.reply⟩ :: keeping c f.token

end Fetch

theorem fetchToken_bind (f : String → Exchanged α) :
    c.fetchToken >>= f = Exchange.step .now >>= fun now => Exchange.step .fresh >>= fun id =>
      Exchange.step (.authenticate ⟨c.base ++ c.authPath, c.authBody now, id.text⟩) >>= fun reply =>
        match tokenOfReply reply with
        | .ok token => Exchange.step (.fillSlot token) >>= fun _ =>
            Exchange.step (.count (.tokenRefreshes c.method)) >>= fun _ => f token
        | .error reason => Exchange.step .clearSlot >>= fun _ => throw (c.refused reason) := by
  refine congrArg (Program.ask (I := Exchange) .now) (funext fun now => ?_)
  refine congrArg (Program.ask (I := Exchange) .fresh) (funext fun id => ?_)
  refine congrArg (Program.ask (I := Exchange) _) (funext fun reply => ?_)
  change (match tokenOfReply reply with
    | .ok token => do
      Exchange.step (.fillSlot token)
      Exchange.step (.count (.tokenRefreshes c.method))
      return token
    | .error reason => do
      dropToken
      throw (c.refused reason) : Exchanged String) >>= f = match tokenOfReply reply with
    | .ok token => Exchange.step (.fillSlot token) >>= fun _ =>
        Exchange.step (.count (.tokenRefreshes c.method)) >>= fun _ => f token
    | .error reason => Exchange.step .clearSlot >>= fun _ => throw (c.refused reason)
  rcases tokenOfReply reply with reason | token <;> rfl

theorem yields_fetchToken_bind_iff {f : String → Exchanged α} {history : Exchange.History}
    {r : Except ProviderFault α} :
    (c.fetchToken >>= f).run.Yields history r ↔
      ∃ (fetch : Fetch) (rest : Exchange.History), history = fetch.history c ++ rest ∧
        ((∃ reason, fetch.token = .error reason ∧ rest = [] ∧ r = .error (c.refused reason)) ∨
          ∃ token, fetch.token = .ok token ∧ (f token).run.Yields rest r) := by
  rw [fetchToken_bind, Exchange.yields_step_bind_iff]
  constructor
  · rintro ⟨now, _, rfl, h⟩
    rw [Exchange.yields_step_bind_iff] at h
    obtain ⟨id, _, rfl, h⟩ := h
    rw [Exchange.yields_step_bind_iff] at h
    obtain ⟨reply, rest, rfl, h⟩ := h
    rcases htoken : tokenOfReply reply with reason | token <;> rw [htoken] at h
    · rw [Exchange.yields_step_bind_iff] at h
      obtain ⟨⟨⟩, _, rfl, h⟩ := h
      obtain ⟨rfl, rfl⟩ := Attempt.yields_throw_iff.mp h
      exact ⟨⟨now, id, reply⟩, [], by simp [Fetch.history, Fetch.token, htoken, Fetch.keeping],
        .inl ⟨reason, htoken, rfl, rfl⟩⟩
    · rw [Exchange.yields_step_bind_iff] at h
      obtain ⟨⟨⟩, _, rfl, h⟩ := h
      rw [Exchange.yields_step_bind_iff] at h
      obtain ⟨⟨⟩, rest, rfl, h⟩ := h
      exact ⟨⟨now, id, reply⟩, rest, by simp [Fetch.history, Fetch.token, htoken, Fetch.keeping],
        .inr ⟨token, htoken, h⟩⟩
  · rintro ⟨⟨now, id, reply⟩, rest, rfl, h⟩
    refine ⟨now, _, rfl, Exchange.yields_step_bind_iff.mpr ⟨id, _, rfl, ?_⟩⟩
    refine Exchange.yields_step_bind_iff.mpr ⟨reply, _, rfl, ?_⟩
    rcases h with ⟨reason, htoken, rfl, rfl⟩ | ⟨token, htoken, h⟩ <;> rw [Fetch.token] at htoken
    · simp only [Fetch.token, htoken]
      exact Exchange.yields_step_bind_iff.mpr ⟨(), [], rfl, Attempt.yields_throw_iff.mpr ⟨rfl, rfl⟩⟩
    · simp only [Fetch.token, htoken]
      refine Exchange.yields_step_bind_iff.mpr ⟨(), _, rfl, ?_⟩
      exact Exchange.yields_step_bind_iff.mpr ⟨(), rest, rfl, h⟩

/-! ## The whole way -/

/-- Where the first token comes from. -/
inductive Opening where
  /-- The slot holds it. -/
  | held (token : String)
  /-- The slot is empty. -/
  | fetched (fetch : Fetch)

namespace Opening

/-- The first token, or why there is none. -/
def token : Opening → Except String String
  | held token => .ok token
  | fetched fetch => fetch.token

/-- The entries of getting the first token. -/
def history (c : ProviderClient) : Opening → Exchange.History
  | held token => [⟨.readSlot, some token⟩]
  | fetched fetch => ⟨.readSlot, none⟩ :: fetch.history c

end Opening

/-- The entries between the first refusal and the request for another token. -/
def renewing (c : ProviderClient) : Exchange.History :=
  [⟨.clearSlot, ()⟩, ⟨.count (.providerRetries c.method .tokenRefresh), ()⟩]

/-- Why a request fails whose token is refused by a status for the second time. -/
def refusedAgain (c : ProviderClient) (status : Nat) : ProviderFault :=
  c.refused (Http.statusText status ++ " after token refresh")

variable (c errand) in
/-- The histories of a request, each with what the caller gets. -/
inductive Sent : Exchange.History → Except ProviderFault Response → Prop
  /-- There is no first token. -/
  | unopened (o : Opening) {reason : String} (h : o.token = .error reason) :
      Sent (o.history c) (.error (c.refused reason))
  /-- The matter is settled with the first token. -/
  | settled (o : Opening) {token : String} (h : o.token = .ok token) {history : Exchange.History}
      {r : Except ProviderFault Response}
      (round : c.Round errand token c.retry.maxRetries history (.settled r)) :
      Sent (o.history c ++ history) r
  /-- The first token is refused and there is no other one. -/
  | unrenewed (o : Opening) {token : String} (h : o.token = .ok token) {history : Exchange.History}
      {left status : Nat} (round : c.Round errand token c.retry.maxRetries history (.refused left status))
      (fetch : Fetch) {reason : String} (hfetch : fetch.token = .error reason) :
      Sent (o.history c ++ (history ++ (c.renewing ++ fetch.history c))) (.error (c.refused reason))
  /-- The matter is settled with the second token. -/
  | renewed (o : Opening) {token : String} (h : o.token = .ok token) {history : Exchange.History}
      {left status : Nat} (round : c.Round errand token c.retry.maxRetries history (.refused left status))
      (fetch : Fetch) {token' : String} (hfetch : fetch.token = .ok token') {history' : Exchange.History}
      {r : Except ProviderFault Response} (round' : c.Round errand token' left history' (.settled r)) :
      Sent (o.history c ++ (history ++ (c.renewing ++ (fetch.history c ++ history')))) r
  /-- The second token is refused as well. -/
  | refused (o : Opening) {token : String} (h : o.token = .ok token) {history : Exchange.History}
      {left status : Nat} (round : c.Round errand token c.retry.maxRetries history (.refused left status))
      (fetch : Fetch) {token' : String} (hfetch : fetch.token = .ok token') {history' : Exchange.History}
      {left' status' : Nat} (round' : c.Round errand token' left history' (.refused left' status')) :
      Sent (o.history c ++ (history ++ (c.renewing ++ (fetch.history c ++ (history' ++ [⟨.clearSlot, ()⟩])))))
        (.error (c.refusedAgain status'))

section
variable {history : Exchange.History} {r : Except ProviderFault Response} {left status : Nat}

theorem yields_currentToken_bind_iff {f : String → Exchanged α} {history : Exchange.History}
    {r : Except ProviderFault α} :
    (c.currentToken >>= f).run.Yields history r ↔
      ∃ (o : Opening) (rest : Exchange.History), history = o.history c ++ rest ∧
        ((∃ reason, o.token = .error reason ∧ rest = [] ∧ r = .error (c.refused reason)) ∨
          ∃ token, o.token = .ok token ∧ (f token).run.Yields rest r) := by
  have hbind : c.currentToken >>= f = Exchange.step .readSlot >>= fun held => held.elim (c.fetchToken >>= f) f := by
    refine congrArg (Program.ask (I := Exchange) .readSlot) (funext fun answer => ?_)
    rcases answer with _ | token <;> rfl
  rw [hbind, Exchange.yields_step_bind_iff]
  constructor
  · rintro ⟨_ | token, rest, rfl, h⟩
    · obtain ⟨fetch, rest, rfl, hrest⟩ := yields_fetchToken_bind_iff.mp h
      exact ⟨.fetched fetch, rest, rfl, hrest⟩
    · exact ⟨.held token, rest, rfl, .inr ⟨token, rfl, h⟩⟩
  · rintro ⟨token | fetch, rest, rfl, h⟩
    · obtain ⟨reason, ⟨⟩, -⟩ | ⟨_, ⟨⟩, h⟩ := h
      exact ⟨some token, rest, rfl, h⟩
    · exact ⟨none, _, rfl, yields_fetchToken_bind_iff.mpr ⟨fetch, rest, rfl, h⟩⟩

theorem yields_giveUp_iff :
    (c.giveUp left status).run.Yields history r ↔
      history = [⟨.clearSlot, ()⟩] ∧ r = .error (c.refusedAgain status) := by
  unfold giveUp dropToken
  rw [Exchange.yields_step_bind_iff]
  constructor
  · rintro ⟨⟨⟩, _, rfl, h⟩
    obtain ⟨rfl, rfl⟩ := Attempt.yields_throw_iff.mp h
    exact ⟨rfl, rfl⟩
  · rintro ⟨rfl, rfl⟩
    exact ⟨(), [], rfl, Attempt.yields_throw_iff.mpr ⟨rfl, rfl⟩⟩

theorem yields_refresh_iff :
    (c.refresh errand left status).run.Yields history r ↔
      ∃ (fetch : Fetch) (rest : Exchange.History), history = c.renewing ++ (fetch.history c ++ rest) ∧
        ((∃ reason, fetch.token = .error reason ∧ rest = [] ∧ r = .error (c.refused reason)) ∨
          ∃ token, fetch.token = .ok token ∧
            (c.attempts errand c.giveUp token left).run.Yields rest r) := by
  unfold refresh dropToken
  rw [Exchange.yields_step_bind_iff]
  constructor
  · rintro ⟨⟨⟩, _, rfl, h⟩
    rw [Exchange.yields_step_bind_iff] at h
    obtain ⟨⟨⟩, _, rfl, h⟩ := h
    obtain ⟨fetch, rest, rfl, hrest⟩ := yields_fetchToken_bind_iff.mp h
    exact ⟨fetch, rest, rfl, hrest⟩
  · rintro ⟨fetch, rest, rfl, h⟩
    refine ⟨(), _, rfl, Exchange.yields_step_bind_iff.mpr ⟨(), _, rfl, ?_⟩⟩
    exact yields_fetchToken_bind_iff.mpr ⟨fetch, rest, rfl, h⟩

theorem sent_of_yields (h : (c.send errand).run.Yields history r) : c.Sent errand history r := by
  rw [send, yields_currentToken_bind_iff] at h
  obtain ⟨o, _, rfl, ⟨reason, ho, rfl, rfl⟩ | ⟨token, ho, h⟩⟩ := h
  · rw [List.append_nil]
    exact .unopened o ho
  obtain ⟨first, rest, r' | ⟨left, status⟩, hround, rfl, hend⟩ := round_of_yields h
  · obtain ⟨rfl, rfl⟩ := hend
    rw [List.append_nil]
    exact .settled o ho hround
  obtain ⟨fetch, rest, rfl, ⟨reason, hfetch, rfl, rfl⟩ | ⟨token', hfetch, hsecond⟩⟩ := yields_refresh_iff.mp hend
  · rw [List.append_nil]
    exact .unrenewed o ho hround fetch hfetch
  obtain ⟨second, rest, r' | ⟨left', status'⟩, hround', rfl, hend'⟩ := round_of_yields hsecond
  · obtain ⟨rfl, rfl⟩ := hend'
    rw [List.append_nil]
    exact .renewed o ho hround fetch hfetch hround'
  · obtain ⟨rfl, rfl⟩ := yields_giveUp_iff.mp hend'
    exact .refused o ho hround fetch hfetch hround'

theorem Sent.yields (h : c.Sent errand history r) : (c.send errand).run.Yields history r := by
  rw [send, yields_currentToken_bind_iff]
  rcases h with ⟨o, ho⟩ | ⟨o, ho, hround⟩ | ⟨o, ho, hround, fetch, hfetch⟩ |
    ⟨o, ho, hround, fetch, hfetch, hround'⟩ | ⟨o, ho, hround, fetch, hfetch, hround'⟩
  · exact ⟨o, [], (List.append_nil _).symm, .inl ⟨_, ho, rfl, rfl⟩⟩
  · exact ⟨o, _, rfl, .inr ⟨_, ho, hround.yields_of_settled⟩⟩
  · refine ⟨o, _, rfl, .inr ⟨_, ho, hround.yields ?_⟩⟩
    exact yields_refresh_iff.mpr ⟨fetch, [], by simp, .inl ⟨_, hfetch, rfl, rfl⟩⟩
  · refine ⟨o, _, rfl, .inr ⟨_, ho, hround.yields ?_⟩⟩
    exact yields_refresh_iff.mpr ⟨fetch, _, rfl, .inr ⟨_, hfetch, hround'.yields_of_settled⟩⟩
  · refine ⟨o, _, rfl, .inr ⟨_, ho, hround.yields ?_⟩⟩
    refine yields_refresh_iff.mpr ⟨fetch, _, rfl, .inr ⟨_, hfetch, hround'.yields ?_⟩⟩
    exact yields_giveUp_iff.mpr ⟨rfl, rfl⟩

/-- **All histories of a request.** -/
theorem yields_send_iff : (c.send errand).run.Yields history r ↔ c.Sent errand history r :=
  ⟨sent_of_yields, Sent.yields⟩

end

end ProviderClient

end WalletTopUp
