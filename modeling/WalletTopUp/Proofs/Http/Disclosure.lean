import WalletTopUp.Proofs.Http.Authentication
import WalletTopUp.Proofs.TwoRuns

/-!
# What a response says of a failure

A failure carries details that are meant for the log: what a provider has replied, why no connection came about, what
a store complained of, and the causes below a message. Failures that differ in such details alone are `Alike`, and
they are answered by the same response, bit by bit (`faultResponse_hides_details`): a failure of a provider is turned
into a fault of a kind that keeps its message to itself, or its message names only what two failures that are alike
share.

So nothing of the details gets through the service either. An operation never looks into a failure: it passes it on,
or it goes on as if nothing had been found. Two runs of the server whose collaborators fail alike therefore ask the
same questions and end with the same response (`serve_discloses_nothing`).
-/

namespace WalletTopUp

/-! ## Failures that differ in details alone -/

/-- Failures of one kind at one provider. What the provider has refused or the service cannot express is the same. -/
inductive ProviderFault.Alike : ProviderFault → ProviderFault → Prop
  | authentication (provider : PaymentMethod) (reason reason' : String) :
      Alike (.authentication provider reason) (.authentication provider reason')
  | server (provider : PaymentMethod) (status : Nat) : Alike (.server provider status) (.server provider status)
  | transport (provider : PaymentMethod) (reason reason' : String) :
      Alike (.transport provider reason) (.transport provider reason')
  | rejected (provider : PaymentMethod) (status : Nat) (body body' : String) :
      Alike (.rejected provider status body) (.rejected provider status body')
  | invalidResponse (provider : PaymentMethod) (reason reason' : String) :
      Alike (.invalidResponse provider reason) (.invalidResponse provider reason')
  | invalidRequest (provider : PaymentMethod) (reason : String) :
      Alike (.invalidRequest provider reason) (.invalidRequest provider reason)

namespace Fault

/-- Faults of one kind. Those that are told to the caller have the same outermost message. -/
inductive Alike : Fault → Fault → Prop
  | invalid (report : TopUpRequest.Report) : Alike (.invalid report) (.invalid report)
  | badRequest (message : String) (below below' : List String) :
      Alike (.badRequest ⟨message, below⟩) (.badRequest ⟨message, below'⟩)
  | notFound (message : String) (below below' : List String) :
      Alike (.notFound ⟨message, below⟩) (.notFound ⟨message, below'⟩)
  | forbidden (message : String) (below below' : List String) :
      Alike (.forbidden ⟨message, below⟩) (.forbidden ⟨message, below'⟩)
  | unauthenticated (message : String) (below below' : List String) :
      Alike (.unauthenticated ⟨message, below⟩) (.unauthenticated ⟨message, below'⟩)
  | providerAuthentication (cause cause' : Cause) :
      Alike (.providerAuthentication cause) (.providerAuthentication cause')
  | internal (cause cause' : Cause) : Alike (.internal cause) (.internal cause')
  | badGateway (message message' : String) : Alike (.badGateway message) (.badGateway message')
  | unavailable : Alike .unavailable .unavailable
  | database (cause cause' : Cause) : Alike (.database cause) (.database cause')
  | cache (message message' : String) : Alike (.cache message) (.cache message')
  | configuration (cause cause' : Cause) : Alike (.configuration cause) (.configuration cause')

/-- The kinds of faults whose message is told to the caller. -/
def tellingKinds : List (Cause → Fault) := [.badRequest, .notFound, .forbidden, .unauthenticated]

theorem Alike.refl : ∀ f : Fault, Alike f f
  | .invalid report => .invalid report
  | .badRequest ⟨message, below⟩ => .badRequest message below below
  | .notFound ⟨message, below⟩ => .notFound message below below
  | .forbidden ⟨message, below⟩ => .forbidden message below below
  | .unauthenticated ⟨message, below⟩ => .unauthenticated message below below
  | .providerAuthentication cause => .providerAuthentication cause cause
  | .internal cause => .internal cause cause
  | .badGateway message => .badGateway message message
  | .unavailable => .unavailable
  | .database cause => .database cause cause
  | .cache message => .cache message message
  | .configuration cause => .configuration cause cause

section
variable {f f' : Fault}

theorem Alike.status_eq (h : Alike f f') : f'.status = f.status := by
  cases h <;> rfl

theorem Alike.body_eq (h : Alike f f') : f'.body = f.body := by
  cases h <;> rfl

theorem Alike.outcomeOf_eq (h : Alike f f') : TopUp.outcomeOf f' = TopUp.outcomeOf f := by
  cases h <;> rfl

end

theorem body_of_telling {kind : Cause → Fault} (h : kind ∈ tellingKinds) (cause : Cause) :
    (kind cause).body = .object [("error", .text cause.message)] := by
  have hkinds : kind = .badRequest ∨ kind = .notFound ∨ kind = .forbidden ∨ kind = .unauthenticated := by
    simpa [tellingKinds] using h
  rcases hkinds with rfl | rfl | rfl | rfl <;> rfl

end Fault

/-- Where the message of a provider's failure is told, it names what the two failures share. -/
theorem ProviderFault.Alike.toFault {f f' : ProviderFault} (h : f.Alike f') : f.toFault.Alike f'.toFault := by
  cases h with
  | authentication => exact .providerAuthentication _ _
  | server => exact .badGateway _ _
  | transport => exact .badGateway _ _
  | rejected provider status body body' =>
    unfold ProviderFault.toFault
    dsimp only
    split_ifs
    · exact .notFound (ProviderFault.rejected provider status body).message [] []
    · exact .badRequest (ProviderFault.rejected provider status body).message [] []
  | invalidResponse => exact .badGateway _ _
  | invalidRequest => exact .badRequest _ [] []

namespace Http

theorem faultResponse_eq_of_alike {f f' : Fault} (h : f.Alike f') : faultResponse f' = faultResponse f := by
  unfold faultResponse
  rw [h.status_eq, h.body_eq]

/-- **A response does not show the details of a failure.** Failures of a provider that are alike are answered by the
same response, so are faults that are alike, and of the kinds whose message is told the outermost message is all that
is told. -/
theorem faultResponse_hides_details :
    (∀ f f' : ProviderFault, f.Alike f' → faultResponse f'.toFault = faultResponse f.toFault) ∧
      (∀ f f' : Fault, f.Alike f' → faultResponse f' = faultResponse f) ∧
      ∀ kind ∈ Fault.tellingKinds, ∀ cause : Cause, faultResponse (kind cause) =
        jsonResponse (kind cause).status (Json.object [("error", .text cause.message)]).write := by
  refine ⟨fun f f' h => faultResponse_eq_of_alike h.toFault, fun f f' h => faultResponse_eq_of_alike h, ?_⟩
  intro kind hkind cause
  unfold faultResponse
  rw [Fault.body_of_telling hkind]

/-- What two providers say with a refusal and what lies below a missing user make no difference. -/
theorem faultResponse_hides_details_refused :
    faultResponse (ProviderFault.rejected .gopay 404 "no wallet 0812 at 10.0.0.3").toFault =
        faultResponse (ProviderFault.rejected .gopay 404 "").toFault ∧
      faultResponse (.notFound ⟨"user not found: ana", ["no row in users"]⟩) =
        faultResponse (.notFound ⟨"user not found: ana", []⟩) ∧
      faultResponse (.notFound ⟨"user not found: ana", ["no row in users"]⟩) =
        jsonResponse 404 (Json.object [("error", .text "user not found: ana")]).write := by
  obtain ⟨hprovider, hfault, htold⟩ := faultResponse_hides_details
  refine ⟨hprovider _ _ (.rejected .gopay 404 _ _), hfault _ _ (.notFound _ _ _), ?_⟩
  have hkind : Fault.notFound ∈ Fault.tellingKinds := by simp [Fault.tellingKinds]
  exact htold _ hkind _

end Http

/-! ## Failures on their way through the service -/

/-- Both stop with faults that are alike, or both without an answer. -/
inductive Stop.Alike : Stop → Stop → Prop
  | fault {f f' : Fault} (h : f.Alike f') : Alike (.fault f) (.fault f')
  | overflow : Alike .overflow .overflow

namespace Service

/-- Failures that are alike, or the same answer. How the cache fails does not matter, and nobody looks at what becomes
of an entry that is written. -/
def Answer.Alike : (q : Question) → Answer q → Answer q → Prop
  | .findUser _ | .readAccount _ | .writeBalance _ => SameOr Fault.Alike
  | .readCache _ => SameOr fun _ _ => True
  | .writeCache _ _ _ => fun _ _ => True
  | .orderTopUp _ _ | .walletBalance _ _ _ => SameOr ProviderFault.Alike
  | .dispatch _ _ | .now | .fresh | .count _ => Eq

/-- When its collaborators fail alike, the attempt ends alike. -/
def Discreet {ε α : Type} (E : ε → ε → Prop) (x : Attempt Service ε α) : Prop := Attempt.Rel Answer.Alike E x x

section
variable {α : Type} {username : String}

theorem rel_orFail {x x' : Except Fault α} (h : SameOr Fault.Alike x x') :
    Attempt.Rel Answer.Alike Fault.Alike (orFail x) (orFail x') := by
  cases h with
  | error h => exact .throw h
  | ok a => exact .pure a

theorem discreet_orNotFound (message : String) (found : Option α) :
    Discreet Fault.Alike (orNotFound message found) := by
  cases found with
  | none => exact .throw (.refl _)
  | some a => exact .pure a

theorem discreet_requireUser : Discreet Fault.Alike (requireUser username) := by
  refine Attempt.Rel.perform_bind fun answer answer' h => ?_
  exact (rel_orFail h).bind (discreet_orNotFound _)

theorem discreet_requireAccount (userId : Json.Word) : Discreet Fault.Alike (requireAccount userId username) := by
  refine Attempt.Rel.perform_bind fun answer answer' h => ?_
  exact (rel_orFail h).bind (discreet_orNotFound _)

theorem discreet_readView (view : Account → α) : Discreet Fault.Alike (readView view username) := by
  refine discreet_requireUser.bind fun user => ?_
  exact (discreet_requireAccount user.id).bind fun account => .pure _

/-- However the cache fails, there is nothing in it that can be used. -/
theorem held?_eq_of_alike [Json.Form α] {answer answer' : Except String (Option String)}
    (h : SameOr (fun _ _ => True) answer answer') : held? α answer' = held? α answer := by
  cases h <;> rfl

theorem discreet_lookup [Json.Form α] (key : String) (minutes : Nat) (view : Account → α) :
    Discreet Fault.Alike (lookup key minutes view username) := by
  unfold Discreet
  rw [lookup_eq]
  refine Attempt.Rel.perform_bind fun answer answer' h => ?_
  rw [held?_eq_of_alike h]
  cases held? α answer with
  | some a => exact .pure a
  | none =>
    refine (discreet_readView view).bind fun a => ?_
    exact Attempt.Rel.perform_bind fun _ _ _ => .pure a

end

end Service

namespace TopUp
open Service (Answer Discreet)

section
variable {α : Type} {registry : Registry} {username walletType : String} {request : TopUpRequest}

theorem rel_orProviderFault {x x' : Except ProviderFault α} (h : SameOr ProviderFault.Alike x x') :
    Attempt.Rel Answer.Alike Fault.Alike (orProviderFault x) (orProviderFault x') := by
  cases h with
  | error h => exact .throw h.toFault
  | ok a => exact .pure a

theorem discreet_choose (name : String) : Discreet Fault.Alike (Service.orFail (registry.choose name)) := by
  cases registry.choose name with
  | error fault => exact .throw (.refl fault)
  | ok chosen => exact .pure chosen

theorem discreet_walletBalance : Discreet Fault.Alike (walletBalance registry username walletType) := by
  refine Service.discreet_requireUser.bind fun user => ?_
  refine (discreet_choose walletType).bind fun (method, provider) => ?_
  refine Attempt.Rel.perform_bind_of_eq (fun _ _ h => h) fun id => ?_
  refine Attempt.Rel.perform_bind fun answer answer' h => ?_
  refine (rel_orProviderFault h).bind fun found => ?_
  refine (Service.discreet_requireAccount user.id).bind fun account => ?_
  cases found.lastUpdated with
  | some at' => exact .pure _
  | none =>
    refine Attempt.Rel.perform_bind_of_eq (fun _ _ h => h) fun now => ?_
    exact .pure _

/-! ### Top-ups -/

theorem discreet_fail (fault : Fault) : Discreet Stop.Alike (fail fault : Flow α) := .throw (.fault (.refl fault))

theorem rel_part {x x' : Serving α} (h : Attempt.Rel Answer.Alike Fault.Alike x x') :
    Attempt.Rel Answer.Alike Stop.Alike (part x) (part x') := by
  refine Program.Rel.bind h ?_
  rintro _ _ (hfault | a)
  · exact .finish (.error (.fault hfault))
  · exact .finish (.ok a)

theorem discreet_payingAccount (user : User) (amount : Decimal) :
    Discreet Stop.Alike (payingAccount username user amount) := by
  refine (rel_part (Service.discreet_requireAccount user.id)).bind fun account => ?_
  split_ifs
  · exact discreet_fail _
  · exact discreet_fail _
  · exact discreet_fail _
  · exact .pure account

theorem discreet_place (provider : Nat) (order : TopUpOrder) : Discreet Stop.Alike (place provider order) := by
  refine Attempt.Rel.perform_bind fun answer answer' h => ?_
  cases h with
  | error h => exact .throw (.fault h.toFault)
  | ok found =>
    cases found with
    | none => exact discreet_fail _
    | some acceptance => exact .pure acceptance

theorem discreet_debit (account : Account) (amount : Decimal) : Discreet Stop.Alike (debit account amount) := by
  refine Attempt.Rel.perform_bind_of_eq (fun _ _ h => h) fun now => ?_
  cases account.debited? amount now with
  | none => exact .throw .overflow
  | some debited =>
    refine Attempt.Rel.perform_bind fun answer answer' h => ?_
    exact (rel_part (Service.rel_orFail h)).bind fun _ => .pure ()

theorem discreet_reread (user : User) (account : Account) : Discreet Stop.Alike (reread user account) := by
  refine Attempt.Rel.perform_bind fun answer answer' h => ?_
  refine (rel_part (Service.rel_orFail h)).bind fun found => ?_
  cases found with
  | none => exact discreet_fail _
  | some current => exact .pure current

theorem discreet_settle (p : Placing) : Discreet Stop.Alike (p.settle username request) := by
  refine (discreet_place p.provider (p.order request)).bind fun acceptance => ?_
  refine (discreet_debit p.account request.amount).bind fun _ => ?_
  refine (discreet_reread p.user p.account).bind fun current => ?_
  refine Attempt.Rel.perform_bind_of_eq (fun _ _ h => h) fun now => ?_
  refine Attempt.Rel.perform_bind_of_eq (fun _ _ h => h) fun id => ?_
  exact Attempt.Rel.perform_bind fun _ _ _ => .pure _

theorem discreet_execute : Discreet Stop.Alike (execute registry username request) := by
  rcases hvalid : request.validate with _ | report
  · rw [execute_of_valid hvalid]
    refine (rel_part Service.discreet_requireUser).bind fun user => ?_
    refine (discreet_payingAccount user request.amount).bind fun account => ?_
    refine (rel_part (discreet_choose request.paymentMethod)).bind fun (method, provider) => ?_
    refine Attempt.Rel.perform_bind_of_eq (fun _ _ h => h) fun now => ?_
    refine Attempt.Rel.perform_bind_of_eq (fun _ _ h => h) fun id => ?_
    exact discreet_settle ⟨user, account, method, provider, now, id⟩
  · unfold execute
    rw [hvalid]
    exact discreet_fail (.invalid report)

theorem rel_topUp : Program.Rel Answer.Alike (SameOr Stop.Alike) (topUp registry username request)
    (topUp registry username request) := by
  refine Program.Rel.bind discreet_execute ?_
  rintro _ _ (@⟨_, _, @⟨fault, fault', h⟩ | _⟩ | receipt)
  · dsimp only
    rw [h.outcomeOf_eq]
    exact .ask fun _ _ _ => .finish (.error (.fault h))
  · exact .finish (.error .overflow)
  · exact .ask fun _ _ _ => .finish (.ok receipt)

end

end TopUp

namespace Http
open Service (Answer Discreet)

section
variable {g : Gateway} {request : HttpRequest}

theorem discreet_respond {α : Type} [Json.Form α] {message : String} {x : Serving α} (h : Discreet Fault.Alike x) :
    Discreet Eq (respond message x) := by
  refine Attempt.Rel.lift_bind h ?_
  rintro _ _ (h | a)
  · dsimp only
    rw [faultResponse_eq_of_alike h]
    exact .pure _
  · exact .pure _

theorem discreet_authenticated {serve : String → Handler} (h : ∀ username, Discreet Eq (serve username request)) :
    Discreet Eq (authenticated g serve request) := by
  refine Attempt.Rel.perform_bind_of_eq (fun _ _ h => h) fun now => ?_
  cases subject g.verifier now request.headers with
  | error fault => exact .pure _
  | ok username => exact h username

theorem discreet_account : Discreet Eq (account g request) := by
  unfold account
  exact discreet_authenticated fun username => discreet_respond (Service.discreet_lookup _ _ _)

theorem discreet_balance : Discreet Eq (balance g request) := by
  unfold balance
  exact discreet_authenticated fun username => discreet_respond (Service.discreet_lookup _ _ _)

theorem discreet_wallet : Discreet Eq (wallet g request) := by
  unfold wallet
  refine discreet_authenticated fun username => ?_
  cases queryValue request.query "ewallet" with
  | error fault => exact .pure _
  | ok walletType => exact discreet_respond TopUp.discreet_walletBalance

theorem discreet_topUp : Discreet Eq (topUp g request) := by
  unfold topUp
  refine discreet_authenticated fun username => ?_
  cases (readBody request : Except BodyFault TopUpRequest) with
  | error fault => exact .pure _
  | ok order =>
    refine Attempt.Rel.lift_bind TopUp.rel_topUp ?_
    rintro _ _ (@⟨_, _, @⟨fault, fault', h⟩ | _⟩ | receipt)
    · dsimp only
      rw [faultResponse_eq_of_alike h]
      exact .pure _
    · exact .throw rfl
    · exact .pure _

theorem discreet_routes {route : Route} (h : route ∈ routes g) : Discreet Eq (route.handler request) := by
  simp only [routes, List.mem_cons, List.not_mem_nil, or_false] at h
  rcases h with rfl | rfl | rfl | rfl | rfl | rfl | rfl
  · exact .pure _
  · exact .pure _
  · exact .pure _
  · exact discreet_account
  · exact discreet_balance
  · exact discreet_wallet
  · exact discreet_topUp

theorem discreet_dispatch : Discreet Eq (dispatch g request) := by
  unfold dispatch
  rcases hroute : route? g request.path with _ | route
  · exact .pure _
  have hhandler : Discreet Eq (route.handler request) := discreet_routes (List.mem_of_find?_eq_some hroute)
  dsimp only
  unfold Route.serve
  split
  · exact hhandler
  · exact hhandler.bind fun response => .pure _
  · exact hhandler
  · exact .pure _

theorem discreet_counted {inner : Handler} (h : ∀ request, Discreet Eq (inner request)) (label : String → String) :
    Discreet Eq (counted label inner request) := by
  refine (h request).bind fun response => ?_
  refine Attempt.Rel.perform_bind fun _ _ _ => ?_
  exact Attempt.Rel.perform_bind fun _ _ _ => .pure response

theorem discreet_correlated {inner : Handler} (h : ∀ request, Discreet Eq (inner request)) :
    Discreet Eq (correlated inner request) := by
  have hinner : ∀ value, Discreet Eq (withRequestId inner request value) :=
    fun value => (h _).bind fun response => .pure _
  rw [correlated_eq]
  cases incomingRequestId? request.headers with
  | some value => exact hinner value
  | none =>
    refine Attempt.Rel.perform_bind_of_eq (fun _ _ h => h) fun id => ?_
    exact hinner _

theorem discreet_serve : Discreet Eq (serve g request) :=
  discreet_correlated fun _ => discreet_counted (fun _ => discreet_dispatch) _

end

/-- **Nothing of a failure's details leaves the service.** When the collaborators of two runs answer alike, the runs ask
the same questions and end with the same response. -/
theorem serve_discloses_nothing (g : Gateway) (request : HttpRequest) {respond respond' : Service.Responder}
    (halike : respond.Rel Answer.Alike respond') {history history' : Service.History} {r r' : Except Stop HttpResponse}
    (hyields : (serve g request).run.Yields history r) (hanswered : Answered respond [] history)
    (hyields' : (serve g request).run.Yields history' r') (hanswered' : Answered respond' [] history') :
    r' = r ∧ history.Rel Answer.Alike history' := by
  obtain ⟨hresult, hhistory⟩ :=
    Program.Rel.results discreet_serve halike .nil hyields hanswered hyields' hanswered'
  refine ⟨?_, hhistory⟩
  cases hresult with
  | error h => exact congrArg Except.error h.symm
  | ok response => rfl

end Http

end WalletTopUp
