import WalletTopUp.Proofs.Provider.Order
import WalletTopUp.Proofs.Text.Case
import WalletTopUp.Proofs.TopUp.Effects

/-!
# What becomes of an order

Both providers answer an order with a status and a body. What a body reports (`Report`) is the same for both: the
provider's id, a word for the status and an amount; only the words that may speak of a failure differ, and a word of
failure counts in any case of its letters (`ofProvider_eq_failed_iff`). So one judgement serves both
(`judge_eq`), and the order of its checks decides every response (`Classified`). An order is accepted only on a
success whose report names no failure, and without an acceptance nothing is debited (`topUp_classified`).
-/

namespace WalletTopUp

namespace TransactionStatus

theorem ofProvider_eq_failed_iff {word : String} :
    ofProvider word = .failed ↔ ∃ failure ∈ ["FAILED", "REJECTED", "CANCELLED"], Text.AnyCase failure word := by
  have hfailure : ofProvider word = .failed ↔ Text.upper word ∈ failureWords := by
    have hdistinct : ∀ failure ∈ failureWords, failure ∉ successWords := by decide
    unfold ofProvider
    dsimp only
    split_ifs with hsuccess hfailed
    · have hword := List.contains_iff_mem.mp hsuccess
      simpa using fun h => hdistinct _ h hword
    · simpa using hfailed
    · simpa using hfailed
  have hcapitals : ∀ failure ∈ failureWords, ∀ letter ∈ failure.toList, letter.isUpper = true := by
    simp [failureWords]
  rw [hfailure]
  constructor
  · intro hmem
    exact ⟨_, hmem, (Text.upper_eq_iff (hcapitals _ hmem)).mp rfl⟩
  · rintro ⟨failure, hmem, hcase⟩
    rwa [(Text.upper_eq_iff (hcapitals _ hmem)).mpr hcase]
end TransactionStatus

namespace ProviderClient
variable {c : ProviderClient} {response : Response} {history : Exchange.History}
  {accepted : Except ProviderFault (Option Acceptance)}

/-! ## Reports -/

structure Report where
  providerId : String
  /-- The status in the provider's words. -/
  status : String
  /-- The words that may speak of a failure. -/
  words : List String
  amount : Binary64

/-- Some word of the report is one of failure. -/
def Report.Fails (report : Report) : Prop :=
  ∃ word ∈ report.words, ∃ failure ∈ ["FAILED", "REJECTED", "CANCELLED"], Text.AnyCase failure word

def report? (c : ProviderClient) (body : String) : Except Json.Failure Report :=
  match c.method with
  | .gopay => (Gopay.topUpShape.whole (Text.symbols body)).map fun (word, providerId, stated, ()) =>
      ⟨providerId, word, [word], stated⟩
  | .shopeePay => (ShopeePay.topUpShape.whole (Text.symbols body)).map
      fun (result, (providerId, stated, word, ()), ()) => ⟨providerId, word, [word, result], stated⟩

theorem judge_eq (c : ProviderClient) (response : Response) :
    c.judge response = c.ifAccepted response (match c.report? response.body with
      | .error failure => throw (c.unreadable failure.text)
      | .ok report => do
        if ∃ word ∈ report.words, TransactionStatus.ofProvider word = .failed then return none
        return some
          ⟨report.providerId, .ofProvider report.status, report.status, ← c.amountOf report.amount⟩) := by
  unfold judge report?
  rcases hmethod : c.method with _ | _
  · dsimp only
    unfold decodeBody
    rcases Gopay.topUpShape.whole (Text.symbols response.body) with failure | ⟨word, providerId, stated, ⟨⟩⟩
    · rfl
    · simp [Except.map]
  · dsimp only
    unfold decodeBody
    rcases ShopeePay.topUpShape.whole (Text.symbols response.body) with
      failure | ⟨result, ⟨providerId, stated, word, ⟨⟩⟩, ⟨⟩⟩
    · rfl
    · simp [Except.map]

/-! ## Responses -/

/-- What is made of the result of a request for an order. -/
structure Classified (c : ProviderClient) (sent : Except ProviderFault Response)
    (accepted : Except ProviderFault (Option Acceptance)) : Prop where
  /-- A request that failed is told as it is. -/
  unsent : ∀ fault, sent = .error fault → accepted = .error fault
  /-- A client error is the provider's no, but a refused token never gets here. -/
  declined : ∀ response, sent = .ok response → 400 ≤ response.status → response.status < 500 →
    accepted = .ok none ∧ response.status ≠ 401 ∧ (c.method = .gopay → response.status ≠ 403)
  unexpected : ∀ response, sent = .ok response → ¬(400 ≤ response.status ∧ response.status < 500) →
    ¬(200 ≤ response.status ∧ response.status < 300) →
    accepted = .error (.invalidResponse c.method ("unexpected status " ++ Http.statusText response.status))
  unreadable : ∀ response failure, sent = .ok response → 200 ≤ response.status → response.status < 300 →
    c.report? response.body = .error failure → accepted = .error (.invalidResponse c.method failure.text)
  /-- A report of failure is the provider's no, whatever its amount, and nothing else on a success is. -/
  failed_iff : ∀ response report, sent = .ok response → 200 ≤ response.status → response.status < 300 →
    c.report? response.body = .ok report → (accepted = .ok none ↔ report.Fails)
  taken : ∀ response report amount, sent = .ok response → 200 ≤ response.status → response.status < 300 →
    c.report? response.body = .ok report → ¬report.Fails → Decimal.ofBinary64? report.amount = some amount →
    accepted = .ok (some ⟨report.providerId, .ofProvider report.status, report.status, amount⟩)
  worthless : ∀ response report, sent = .ok response → 200 ≤ response.status → response.status < 300 →
    c.report? response.body = .ok report → ¬report.Fails → Decimal.ofBinary64? report.amount = none →
    accepted = .error (.invalidResponse c.method
      ("invalid amount " ++ report.amount.positional ++ ": Error while converting to Decimal"))
  /-- Only a success whose report names no failure is an acceptance, and so its status is none. -/
  standing : ∀ acceptance, accepted = .ok (some acceptance) →
    (acceptance.status = .success ∨ acceptance.status = .pending) ∧
      ∃ response report, sent = .ok response ∧ 200 ≤ response.status ∧ response.status < 300 ∧
        c.report? response.body = .ok report ∧ ¬report.Fails

theorem Report.fails_iff {report : Report} :
    report.Fails ↔ ∃ word ∈ report.words, TransactionStatus.ofProvider word = .failed := by
  simp only [Report.Fails, TransactionStatus.ofProvider_eq_failed_iff]

theorem status_mem_words {report : Report} {body : String} (h : c.report? body = .ok report) :
    report.status ∈ report.words := by
  unfold report? at h
  split at h
  · rcases hwhole : Gopay.topUpShape.whole (Text.symbols body) with failure | ⟨word, providerId, stated, ⟨⟩⟩
    all_goals
      rw [hwhole] at h
      cases h
    exact List.mem_singleton_self _
  · rcases hwhole : ShopeePay.topUpShape.whole (Text.symbols body) with
      failure | ⟨result, ⟨providerId, stated, word, ⟨⟩⟩, ⟨⟩⟩
    all_goals
      rw [hwhole] at h
      cases h
    exact List.mem_cons_self

def judgeReport (c : ProviderClient) (report : Report) : Except ProviderFault (Option Acceptance) :=
  if ∃ word ∈ report.words, TransactionStatus.ofProvider word = .failed then .ok none
  else match Decimal.ofBinary64? report.amount with
    | some amount => .ok (some ⟨report.providerId, .ofProvider report.status, report.status, amount⟩)
    | none => .error (.invalidResponse c.method
        ("invalid amount " ++ report.amount.positional ++ ": Error while converting to Decimal"))

def judgement (c : ProviderClient) (response : Response) : Except ProviderFault (Option Acceptance) :=
  if Http.isClientError response.status then .ok none
  else if Http.isSuccess response.status then
    match c.report? response.body with
    | .error failure => .error (.invalidResponse c.method failure.text)
    | .ok report => c.judgeReport report
  else .error (.invalidResponse c.method ("unexpected status " ++ Http.statusText response.status))

theorem run_judge (c : ProviderClient) (response : Response) :
    (c.judge response).run = .finish (c.judgement response) := by
  rw [judge_eq]
  unfold ifAccepted judgement
  split_ifs
  · rfl
  · rcases c.report? response.body with failure | report
    · rfl
    · unfold judgeReport amountOf
      dsimp only
      split_ifs
      · rfl
      · rcases Decimal.ofBinary64? report.amount with _ | amount <;> rfl
  · rfl

section
variable {report : Report}

theorem isSuccess_iff {status : Nat} : Http.isSuccess status = true ↔ 200 ≤ status ∧ status < 300 := by
  simp [Http.isSuccess]

theorem isClientError_iff {status : Nat} : Http.isClientError status = true ↔ 400 ≤ status ∧ status < 500 := by
  simp [Http.isClientError]

/-- Only a report without a failure is taken for an acceptance. -/
theorem judgeReport_eq_some {acceptance : Acceptance} (h : c.judgeReport report = .ok (some acceptance)) :
    ¬report.Fails ∧ acceptance.status = .ofProvider report.status := by
  unfold judgeReport at h
  split_ifs at h with hfails
  · cases h
  · refine ⟨fun hreport => hfails (Report.fails_iff.mp hreport), ?_⟩
    split at h
    · cases h
      rfl
    · cases h

theorem judgeReport_eq_none_iff : c.judgeReport report = .ok none ↔ report.Fails := by
  unfold judgeReport
  rw [Report.fails_iff]
  split_ifs with hfails
  · simp [hfails]
  · simp only [hfails, iff_false]
    split <;> simp

theorem judgement_of_success (hlow : 200 ≤ response.status) (hhigh : response.status < 300) :
    c.judgement response = match c.report? response.body with
      | .error failure => .error (.invalidResponse c.method failure.text)
      | .ok report => c.judgeReport report := by
  have hclient : ¬ Http.isClientError response.status = true := by
    rw [isClientError_iff]
    omega
  have hsuccess : Http.isSuccess response.status = true := isSuccess_iff.mpr ⟨hlow, hhigh⟩
  rw [judgement, if_neg hclient, if_pos hsuccess]

theorem judgement_of_report (hlow : 200 ≤ response.status) (hhigh : response.status < 300)
    (hreport : c.report? response.body = .ok report) : c.judgement response = c.judgeReport report := by
  rw [judgement_of_success hlow hhigh, hreport]

theorem judgeReport_of_not_fails (h : ¬report.Fails) :
    c.judgeReport report = match Decimal.ofBinary64? report.amount with
      | some amount => .ok (some ⟨report.providerId, .ofProvider report.status, report.status, amount⟩)
      | none => .error (.invalidResponse c.method
          ("invalid amount " ++ report.amount.positional ++ ": Error while converting to Decimal")) :=
  if_neg (mt Report.fails_iff.mpr h)

end

theorem classified_judgement (hrefused : response.status ≠ 401)
    (hforbidden : c.method = .gopay → response.status ≠ 403) :
    c.Classified (.ok response) (c.judgement response) := by
  constructor
  case unsent => nofun
  case declined =>
    rintro _ ⟨⟩ hlow hhigh
    have hclient : Http.isClientError response.status = true := isClientError_iff.mpr ⟨hlow, hhigh⟩
    exact ⟨if_pos hclient, hrefused, hforbidden⟩
  case unexpected =>
    rintro _ ⟨⟩ hclient hsuccess
    rw [← isClientError_iff] at hclient
    rw [← isSuccess_iff] at hsuccess
    rw [judgement, if_neg hclient, if_neg hsuccess]
  case unreadable =>
    rintro _ failure ⟨⟩ hlow hhigh hreport
    rw [judgement_of_success hlow hhigh, hreport]
  case failed_iff =>
    rintro _ report ⟨⟩ hlow hhigh hreport
    rw [judgement_of_report hlow hhigh hreport]
    exact judgeReport_eq_none_iff
  case taken =>
    rintro _ report amount ⟨⟩ hlow hhigh hreport hfails hamount
    rw [judgement_of_report hlow hhigh hreport, judgeReport_of_not_fails hfails, hamount]
  case worthless =>
    rintro _ report ⟨⟩ hlow hhigh hreport hfails hamount
    rw [judgement_of_report hlow hhigh hreport, judgeReport_of_not_fails hfails, hamount]
  case standing =>
    intro acceptance haccepted
    unfold judgement at haccepted
    split_ifs at haccepted with hclient hsuccess
    · cases haccepted
    · rcases hreport : c.report? response.body with failure | report
      · rw [hreport] at haccepted
        cases haccepted
      · rw [hreport] at haccepted
        obtain ⟨hlow, hhigh⟩ := isSuccess_iff.mp hsuccess
        obtain ⟨hfails, hstatus⟩ := judgeReport_eq_some haccepted
        have hword : TransactionStatus.ofProvider report.status ≠ .failed := by
          intro hfailed
          exact hfails (Report.fails_iff.mpr ⟨report.status, status_mem_words hreport, hfailed⟩)
        refine ⟨?_, response, report, rfl, hlow, hhigh, hreport, hfails⟩
        rw [← hstatus] at hword
        rcases hacceptance : acceptance.status with _ | _ | _
        · exact .inr rfl
        · exact .inl rfl
        · exact absurd hacceptance hword

theorem classified_error (fault : ProviderFault) : c.Classified (.error fault) (.error fault) := by
  constructor
  case unsent =>
    rintro _ ⟨⟩
    rfl
  all_goals nofun

def conclusion (c : ProviderClient) (sent : Except ProviderFault Response) :
    Except ProviderFault (Option Acceptance) :=
  sent.bind c.judgement

/-- The classification leaves one result. -/
theorem Classified.eq {sent : Except ProviderFault Response} (h : c.Classified sent accepted) :
    accepted = c.conclusion sent := by
  rcases sent with fault | response
  · exact h.unsent fault rfl
  · change accepted = c.judgement response
    by_cases hclient : 400 ≤ response.status ∧ response.status < 500
    · rw [judgement, if_pos (isClientError_iff.mpr hclient)]
      exact (h.declined response rfl hclient.1 hclient.2).1
    by_cases hsuccess : 200 ≤ response.status ∧ response.status < 300
    · obtain ⟨hlow, hhigh⟩ := hsuccess
      rcases hreport : c.report? response.body with failure | report
      · rw [judgement_of_success hlow hhigh, hreport]
        exact h.unreadable response failure rfl hlow hhigh hreport
      · rw [judgement_of_report hlow hhigh hreport]
        by_cases hfails : report.Fails
        · rw [judgeReport_eq_none_iff.mpr hfails]
          exact (h.failed_iff response report rfl hlow hhigh hreport).mpr hfails
        · rw [judgeReport_of_not_fails hfails]
          rcases hamount : Decimal.ofBinary64? report.amount with _ | amount
          · exact h.worthless response report rfl hlow hhigh hreport hfails hamount
          · exact h.taken response report amount rfl hlow hhigh hreport hfails hamount
    · rw [judgement, if_neg (mt isClientError_iff.mp hclient), if_neg (mt isSuccess_iff.mp hsuccess)]
      exact h.unexpected response rfl hclient hsuccess

variable {errand : Errand} {order : TopUpOrder}

theorem yields_topUp_iff (herrand : c.orderErrand order = .ok errand) :
    (c.topUp order).run.Yields history accepted ↔
      ∃ sent, (c.send errand).run.Yields history sent ∧ accepted = c.conclusion sent := by
  have hrun : (c.topUp order).run = (c.send errand).run.bind fun sent => .finish (c.conclusion sent) := by
    rw [topUp_eq, herrand]
    change (c.send errand >>= c.judge).run = _
    rw [ExceptT.run_bind]
    refine congrArg _ (funext fun sent => ?_)
    rcases sent with fault | response
    · rfl
    · exact run_judge c response
  rw [hrun]
  exact Program.yields_bind_finish_iff

theorem classified_conclusion {sent : Except ProviderFault Response} (hsent : (c.send errand).run.Yields history sent)
    (hgopay : c.method = .gopay → c.refreshOnForbidden = true) : c.Classified sent (c.conclusion sent) := by
  rcases sent with fault | response
  · exact classified_error fault
  · obtain ⟨-, hrefused, hforbidden⟩ := (sent_of_yields hsent).decided.answered response rfl
    exact classified_judgement hrefused fun hmethod => hforbidden (hgopay hmethod)

theorem refreshOnForbidden_ofSettings {method : PaymentMethod} {settings : ProviderSettings} {retry : RetryPolicy}
    (h : (ofSettings method settings retry).method = .gopay) :
    (ofSettings method settings retry).refreshOnForbidden = true := by
  cases method with
  | gopay => rfl
  | shopeePay => cases h

/-- **The classification of an order.** Whatever slot, network and provider do, an order that can be put into the
provider's form comes to an end, and its result is the one, and the only one, by which it is `Classified` from what the
request has brought. When the service asks for the order and gets this result, it debits an account only if the provider
has answered with a success that reports no failure. -/
theorem topUp_classified (method : PaymentMethod) (settings : ProviderSettings) (retry : RetryPolicy)
    (herrand : (ofSettings method settings retry).orderErrand order = .ok errand) :
    (∀ respond, ∃ history accepted, Answered respond [] history ∧
      ((ofSettings method settings retry).topUp order).run.Yields history accepted) ∧
    (∀ history accepted, ((ofSettings method settings retry).topUp order).run.Yields history accepted ↔
      ∃ sent, ((ofSettings method settings retry).send errand).run.Yields history sent ∧
        (ofSettings method settings retry).Classified sent accepted) ∧
    ∀ history accepted, ((ofSettings method settings retry).topUp order).run.Yields history accepted →
      ∀ registry username request asked r provider, (TopUp.topUp registry username request).Yields asked r →
        (⟨.orderTopUp provider order, accepted⟩ : Service.Entry) ∈ asked →
        (∃ entry ∈ asked, Service.isWrite entry = true) →
        ∃ response acceptance report,
          ((ofSettings method settings retry).send errand).run.Yields history (.ok response) ∧
          accepted = .ok (some acceptance) ∧ (acceptance.status = .success ∨ acceptance.status = .pending) ∧
          200 ≤ response.status ∧ response.status < 300 ∧
          (ofSettings method settings retry).report? response.body = .ok report ∧ ¬report.Fails := by
  refine ⟨fun respond => Program.exists_answered _ respond [], ?_, ?_⟩
  · intro history accepted
    rw [yields_topUp_iff herrand]
    constructor
    · rintro ⟨sent, hsent, rfl⟩
      exact ⟨sent, hsent, classified_conclusion hsent refreshOnForbidden_ofSettings⟩
    · rintro ⟨sent, hsent, hclassified⟩
      exact ⟨sent, hsent, hclassified.eq⟩
  · intro history accepted h registry username request asked r provider hasked horder hwritten
    obtain ⟨sent, hsent, rfl⟩ := (yields_topUp_iff herrand).mp h
    obtain ⟨acceptance, hacceptance⟩ := TopUp.accepted_of_written hasked horder hwritten
    obtain ⟨hstatus, response, report, rfl, hlow, hhigh, hreport, hfails⟩ :=
      (classified_conclusion hsent refreshOnForbidden_ofSettings).standing acceptance hacceptance
    exact ⟨response, acceptance, report, hsent, hacceptance, hstatus, hlow, hhigh, hreport, hfails⟩

namespace Sample

def shopeePay : ProviderClient :=
  ofSettings .shopeePay ⟨"http://shopee", "id", "secret", "signature"⟩ .standard

def placed : TopUpOrder := ⟨"8970812", TopUp.Sample.sixty, "R-1", "A-1"⟩

def placedErrand : Errand := ⟨"POST", ShopeePay.topUpPath, some (ShopeePay.orderBody placed 60), "R-1"⟩

/-- A success with an amount that is none, whose result speaks of a failure. -/
def cancelled : Response where
  status := 200
  body := "\x7b\"result\":\"Cancelled\",\"topup_details\":\x7b\"transaction_id\":\"S-1\"," ++
    "\"amount\":1e30,\"status\":\"SUCCESS\"\x7d\x7d"

def orderHistory : Exchange.History :=
  (Opening.held "token").history shopeePay ++
    [⟨.call (shopeePay.request placedErrand "token"), .ok ⟨200, .ok (Text.bytes cancelled.body)⟩⟩]

theorem sent_order : shopeePay.Sent placedErrand orderHistory (.ok cancelled) := by
  have htoken : headerBytes? "token" ≠ none := by decide +kernel
  have hresponse : shopeePay.responseOf ⟨200, .ok (Text.bytes cancelled.body)⟩ = .ok cancelled := by decide +kernel
  rw [← hresponse]
  exact .settled (.held "token") rfl (.answered _ htoken ⟨200, .ok (Text.bytes cancelled.body)⟩ rfl rfl)

end Sample

theorem topUp_classified_cancelled :
    (Sample.shopeePay.topUp Sample.placed).run.Yields Sample.orderHistory (.ok none) := by
  have herrand : Sample.shopeePay.orderErrand Sample.placed = .ok Sample.placedErrand := rfl
  obtain ⟨-, hclassified, -⟩ := topUp_classified .shopeePay _ _ herrand
  refine (hclassified _ _).mpr ⟨.ok Sample.cancelled, Sample.sent_order.yields, ?_⟩
  have hjudgement : Sample.shopeePay.judgement Sample.cancelled = .ok none := by decide +kernel
  rw [← hjudgement]
  exact classified_judgement (by decide) nofun

end ProviderClient

end WalletTopUp
