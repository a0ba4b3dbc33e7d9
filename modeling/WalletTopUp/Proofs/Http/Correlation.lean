import WalletTopUp.Proofs.Http.Authentication
import WalletTopUp.Proofs.Trace.Correlation
import WalletTopUp.Proofs.Uuid

/-!
# The correlation id of a request

The outermost layer settles one value for a request and its response: the first value that the request brings, byte for
byte, if it can be read and is not blank, and otherwise the text of an identifier that is drawn for the purpose
(`Settles`). The handlers below see that value alone, and whatever they answer, the response leaves with it alone
(`Correlated`). All handlers of the service answer (`answers_routes`), so this holds of every request.
-/

namespace WalletTopUp

theorem Uuid.visible_text (id : Uuid) : Text.Visible id.text := by
  intro c hc
  rw [Uuid.text, String.toList_ofList] at hc
  rcases Uuid.eq_or_mem_of_mem_chars hc with rfl | hdigit
  · decide
  · exact Text.isVisible_of_mem_hexDigits hdigit

namespace Http

/-! ## The value that is settled -/

/-- The value may serve as a correlation id: it can be read, and not all of it is spaces and tabs. -/
def Usable (value : List UInt8) : Prop := Readable value ∧ ∃ b ∈ value, b ≠ 0x20 ∧ b ≠ 0x09

instance (value : List UInt8) : Decidable (Usable value) := inferInstanceAs (Decidable (_ ∧ _))

/-- Of the characters that can be read from a header only space and tab are blank. -/
theorem isBlank_ofNat_iff {value : List UInt8} (h : Readable value) {b : UInt8} (hb : b ∈ value) :
    Text.isBlank (Char.ofNat b.toNat) = true ↔ b = 0x20 ∨ b = 0x09 := by
  have hall : ∀ n < 0x7f, n = 0x09 ∨ 0x20 ≤ n → (Text.isBlank (Char.ofNat n) = true ↔ n = 0x20 ∨ n = 0x09) := by
    decide
  have hrange : b.toNat < 0x7f ∧ (b.toNat = 0x09 ∨ 0x20 ≤ b.toNat) := by
    rcases h b hb with rfl | ⟨hlow, hhigh⟩
    · decide
    · exact ⟨UInt8.lt_iff_toNat_lt.mp hhigh, .inr (UInt8.le_iff_toNat_le.mp hlow)⟩
  rw [hall _ hrange.1 hrange.2, ← UInt8.toNat_inj, ← UInt8.toNat_inj]
  rfl

theorem usable_iff {value : List UInt8} :
    (headerText? value).any (fun text => !Text.isAllBlank text) = true ↔ Usable value := by
  have hblank (hreadable : Readable value) : (value.map fun b => Char.ofNat b.toNat).all Text.isBlank = false ↔
      ∃ b ∈ value, b ≠ 0x20 ∧ b ≠ 0x09 := by
    simp only [List.all_eq_false, List.mem_map, exists_exists_and_eq_and]
    refine exists_congr fun b => and_congr_right fun hb => ?_
    rw [isBlank_ofNat_iff hreadable hb, not_or]
  rw [headerText?, Usable, ← all_isVisibleByte_iff]
  split_ifs with hall
  · simp only [Option.any_some, Bool.not_eq_true', Text.isAllBlank, String.toList_ofList, hall, true_and]
    exact hblank (all_isVisibleByte_iff.mp hall)
  · simp [hall]

theorem incomingRequestId?_eq_some_iff {headers : Headers} {value : List UInt8} :
    incomingRequestId? headers = some value ↔ (headers.values requestIdHeader).head? = some value ∧ Usable value := by
  rw [incomingRequestId?, Option.filter_eq_some_iff, usable_iff, Headers.head?_values]

/-- The correlation id that is settled for a request with these headers, and what was asked to settle it. -/
inductive Settles (headers : Headers) : Service.History → List UInt8 → Prop
  /-- The first value that the request brings is usable. -/
  | brought {value : List UInt8} (hfirst : (headers.values requestIdHeader).head? = some value)
      (husable : Usable value) : Settles headers [] value
  /-- It brings none, or one that is not usable. A random identifier is drawn, and its text is read back as it. -/
  | drawn {id : Uuid} {value : List UInt8}
      (hnone : ∀ first, (headers.values requestIdHeader).head? = some first → ¬ Usable first)
      (hversion : id.IsVersion4) (htext : value = Text.bytes id.text)
      (hread : (headerText? value).map Uuid.ofText = some (.ok id)) : Settles headers [⟨.fresh, id⟩] value

/-! ## What the layer makes of request and response -/

/-- Of the correlation ids there is just the one value, and all other headers are as they were, in their order. -/
structure Carries (value : List UInt8) (before after : Headers) : Prop where
  one : after.values requestIdHeader = [value]
  others : after.without requestIdHeader = before.without requestIdHeader

theorem carries_replace (value : List UInt8) (headers : Headers) :
    Carries value headers (headers.replace requestIdHeader value) :=
  ⟨Headers.values_replace_self, Headers.without_replace⟩

/-- The request as the handlers see it and their answer, the response as it leaves. -/
structure Correlated (request : HttpRequest) (value : List UInt8) (seen : HttpRequest)
    (answer response : HttpResponse) :
    Prop where
  method : seen.method = request.method
  path : seen.path = request.path
  query : seen.query = request.query
  requestBody : seen.body = request.body
  requestHeaders : Carries value request.headers seen.headers
  status : response.status = answer.status
  body : response.body = answer.body
  headers : Carries value answer.headers response.headers

/-- Around the handler a correlation id is settled for the request, and the answer of the handler becomes the
response. -/
def Passes (inner : Handler) (request : HttpRequest) (history : Service.History) (response : HttpResponse) : Prop :=
  ∃ opening rest value seen answer, history = opening ++ rest ∧ Settles request.headers opening value ∧
    (inner seen).run.Yields rest (.ok answer) ∧ Correlated request value seen answer response

def DrawsRandom (history : Service.History) : Prop :=
  ∀ id : Uuid, ⟨.fresh, id⟩ ∈ history → ∃ random, id = .version4 random

section
variable {inner : Handler} {request : HttpRequest} {history : Service.History} {response : HttpResponse}
  {value : List UInt8}

theorem correlated_of_yields (h : (withRequestId inner request value).run.Yields history (.ok response)) :
    ∃ seen answer, (inner seen).run.Yields history (.ok answer) ∧ Correlated request value seen answer response := by
  obtain ⟨result, hinner, hresult⟩ := yields_withRequestId h
  rcases result with stop | answer
  · cases hresult
  · obtain rfl := Except.ok.inj hresult
    exact ⟨_, answer, hinner, ⟨rfl, rfl, rfl, rfl, carries_replace value _, rfl, rfl, carries_replace value _⟩⟩

theorem settles_drawn {id : Uuid} (h : incomingRequestId? request.headers = none) (hversion : id.IsVersion4) :
    Settles request.headers [⟨.fresh, id⟩] (Text.bytes id.text) := by
  refine .drawn (fun first hfirst husable => ?_) hversion rfl ?_
  · rw [incomingRequestId?_eq_some_iff.mpr ⟨hfirst, husable⟩] at h
    cases h
  · rw [Text.headerText?_of_visible id.visible_text, Option.map_some, Uuid.ofText_text]

theorem passes_of_yields (hdraws : DrawsRandom history)
    (h : (correlated inner request).run.Yields history (.ok response)) : Passes inner request history response := by
  rcases correlated_cases h with ⟨value, hid, h⟩ | ⟨id, rest, hid, rfl, hrest⟩
  · obtain ⟨seen, answer, hinner, hcorrelated⟩ := correlated_of_yields h
    obtain ⟨hfirst, husable⟩ := incomingRequestId?_eq_some_iff.mp hid
    exact ⟨[], history, value, seen, answer, rfl, .brought hfirst husable, hinner, hcorrelated⟩
  · obtain ⟨seen, answer, hinner, hcorrelated⟩ := correlated_of_yields hrest
    obtain ⟨random, rfl⟩ := hdraws id List.mem_cons_self
    exact ⟨_, rest, _, seen, answer, rfl, settles_drawn hid (Uuid.isVersion4_version4 random), hinner, hcorrelated⟩

end

/-! ## The handlers answer -/

def Answers (x : Attempt Service Stop HttpResponse) : Prop :=
  ∀ history r, x.run.Yields history r → ∃ response, r = .ok response

namespace Answers

theorem pure (response : HttpResponse) : Answers (pure response) := by
  intro history r h
  exact ⟨response, (Attempt.yields_pure_iff.mp h).2⟩

theorem step_bind {question : Service.Question} {f : Service.Answer question → Attempt Service Stop HttpResponse}
    (h : ∀ answer, Answers (f answer)) : Answers (Service.step question >>= f) := by
  intro history r hyields
  obtain ⟨answer, rest, -, hrest⟩ := Service.yields_step_bind_iff.mp hyields
  exact h answer rest r hrest

theorem bind {x : Attempt Service Stop HttpResponse} {f : HttpResponse → Attempt Service Stop HttpResponse}
    (hx : Answers x) (hf : ∀ response, Answers (f response)) : Answers (x >>= f) := by
  intro history r hyields
  rcases Attempt.yields_bind_cases hyields with ⟨stop, hstop, -⟩ | ⟨first, rest, response, -, -, hrest⟩
  · obtain ⟨_, hresponse⟩ := hx _ _ hstop
    cases hresponse
  · exact hf response rest r hrest

end Answers

section
variable {g : Gateway} {request : HttpRequest}

theorem answers_payment (route : PaymentRoute) : Answers (route.handler g request) := by
  intro history r h
  obtain ⟨_, _, response, -, hr, -⟩ := yields_handler h
  exact ⟨response, hr⟩

theorem answers_routes {route : Route} (h : route ∈ routes g) : Answers (route.handler request) := by
  simp only [routes, List.mem_cons, List.not_mem_nil, or_false] at h
  rcases h with rfl | rfl | rfl | rfl | rfl | rfl | rfl
  · exact .pure _
  · exact .pure _
  · exact .pure _
  · exact answers_payment .account
  · exact answers_payment .balance
  · exact answers_payment .wallet
  · exact answers_payment .topUp

theorem answers_dispatch : Answers (dispatch g request) := by
  unfold dispatch
  rcases hroute : route? g request.path with _ | route
  · exact .pure _
  have hhandler : Answers (route.handler request) := answers_routes (List.mem_of_find?_eq_some hroute)
  dsimp only
  unfold Route.serve
  split
  · exact hhandler
  · exact hhandler.bind fun response => .pure _
  · exact hhandler
  · exact .pure _

theorem answers_serve : Answers (serve g request) := by
  have hcounted (seen : HttpRequest) : Answers (counted (routeLabel g) (dispatch g) seen) :=
    answers_dispatch.bind fun response => .step_bind fun _ => .step_bind fun _ => .pure response
  have hinner (value : List UInt8) : Answers (withRequestId (counted (routeLabel g) (dispatch g)) request value) :=
    (hcounted _).bind fun response => .pure _
  rw [serve, correlated_eq]
  cases incomingRequestId? request.headers with
  | some value => exact hinner value
  | none => exact .step_bind fun id => hinner _

end

/-- **Every response carries the correlation id of its request.** Every request that the service gets, to whatever path
and with whatever headers, comes to a response. Around the counted routes, and around any other handler that answers,
one correlation id is settled: what the handlers see is the request with this value alone, and what leaves is their
answer with this value alone, in place of any that the answer had. -/
theorem requests_correlated :
    (∀ (g : Gateway) (request : HttpRequest) (respond : Service.Responder), ∃ history response,
      Answered respond [] history ∧ (serve g request).run.Yields history (.ok response)) ∧
    (∀ (g : Gateway) (request : HttpRequest) (history : Service.History) (r : Except Stop HttpResponse),
      DrawsRandom history → (serve g request).run.Yields history r →
        ∃ response, r = .ok response ∧ Passes (counted (routeLabel g) (dispatch g)) request history response) ∧
    ∀ (inner : Handler) (request : HttpRequest) (history : Service.History) (response : HttpResponse),
      DrawsRandom history → (correlated inner request).run.Yields history (.ok response) →
        Passes inner request history response := by
  refine ⟨fun g request respond => ?_, fun g request history r hdraws h => ?_,
    fun inner request history response hdraws h => passes_of_yields hdraws h⟩
  · obtain ⟨history, r, hanswered, hyields⟩ := (serve g request).run.exists_answered respond []
    obtain ⟨response, rfl⟩ := answers_serve history r hyields
    exact ⟨history, response, hanswered, hyields⟩
  · obtain ⟨response, rfl⟩ := answers_serve history r h
    exact ⟨response, rfl, passes_of_yields hdraws h⟩

/-! ## Values that are not taken over, and answers with values of their own -/

namespace Sample

/-- A request to no route. It brings two correlation ids, of which the first one is blank. -/
def strayRequest : HttpRequest where
  method := "GET"
  path := "/nowhere"
  query := none
  headers := [⟨"x-request-id", visible " \t"⟩, ⟨"x-request-id", visible "second"⟩]
  body := []

def paddedRequest : HttpRequest := { strayRequest with headers := [⟨"x-request-id", visible " ab"⟩] }

/-- Fails, with correlation ids of its own. -/
def stubborn : Handler := fun _ =>
  return ⟨500, [⟨"x-request-id", visible "own"⟩, ⟨"x-request-id", visible "other"⟩], visible "failed"⟩

def calmDraws : Service.Responder := fun past question =>
  match question with
  | .fresh => .version4 0
  | question => TopUp.Sample.calm past question

theorem drawsRandom {history : Service.History} (h : Answered calmDraws [] history) : DrawsRandom history := by
  intro id hmem
  obtain ⟨_, hid⟩ := h.exists_of_mem hmem
  exact ⟨0, hid⟩

theorem yields_stubborn : (correlated stubborn paddedRequest).run.Yields []
    (.ok ⟨500, [⟨requestIdHeader, visible " ab"⟩], visible "failed"⟩) := by
  have hid : incomingRequestId? paddedRequest.headers = some (visible " ab") := by decide
  rw [correlated_eq, hid]
  exact .finish _

end Sample

open Sample in
theorem requests_correlated_blank :
    (∃ history response, DrawsRandom history ∧ (serve gateway strayRequest).run.Yields history (.ok response) ∧
      response.headers.values requestIdHeader = [Text.bytes (Uuid.version4 0).text]) ∧
    DrawsRandom [] ∧ (correlated stubborn paddedRequest).run.Yields []
      (.ok ⟨500, [⟨requestIdHeader, visible " ab"⟩], visible "failed"⟩) ∧
    Passes stubborn paddedRequest [] ⟨500, [⟨requestIdHeader, visible " ab"⟩], visible "failed"⟩ := by
  refine ⟨?_, nofun, yields_stubborn, requests_correlated.2.2 _ _ _ _ nofun yields_stubborn⟩
  obtain ⟨history, response, hanswered, hyields⟩ := requests_correlated.1 gateway strayRequest calmDraws
  have hdraws := drawsRandom hanswered
  obtain ⟨_, ⟨⟩, opening, rest, value, seen, answer, rfl, hsettles, -, hcorrelated⟩ :=
    requests_correlated.2.1 _ _ _ _ hdraws hyields
  refine ⟨_, response, hdraws, hyields, ?_⟩
  rw [hcorrelated.headers.one]
  cases hsettles with
  | brought hfirst husable =>
    have hblank : ∀ first, (strayRequest.headers.values requestIdHeader).head? = some first → ¬ Usable first := by
      rintro _ ⟨⟩
      decide
    exact absurd husable (hblank _ hfirst)
  | drawn _ _ htext _ =>
    obtain rfl : _ = Uuid.version4 0 := hanswered.1
    rw [htext]

end Http

end WalletTopUp
