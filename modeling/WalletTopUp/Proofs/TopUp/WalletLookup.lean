import WalletTopUp.Proofs.Service.Lookup
import WalletTopUp.TopUp.WalletLookup

/-!
# The course of a wallet lookup

A wallet lookup asks the provider under the phone number of the user, and reads the user's account only when the
provider has answered. `yields_walletBalance_iff` says so with all questions, answers and results.
-/

namespace WalletTopUp.TopUp

/-- What a wallet lookup knows when it asks the provider. -/
structure WalletAsking where
  user : User
  method : PaymentMethod
  provider : Nat
  id : Uuid

namespace WalletAsking

def history (w : WalletAsking) (username : String) (answer : Except ProviderFault WalletBalance) : Service.History :=
  [⟨.findUser username, .ok (some w.user)⟩, ⟨.fresh, w.id⟩,
    ⟨.walletBalance w.provider (w.method.walletId w.user.phoneNumber) w.id.text, answer⟩]

def view (w : WalletAsking) (found : WalletBalance) (account : Account) (lastUpdated : Instant) : WalletView :=
  ⟨w.method, found.balance, currency, account.id, lastUpdated⟩

end WalletAsking

section
variable (registry : Registry) (username walletType : String)

/-- The histories of a wallet lookup, each with its result. -/
inductive WalletLooked : Service.History → Except Fault WalletView → Prop
  | userFault (fault : Fault) : WalletLooked [⟨.findUser username, .error fault⟩] (.error fault)
  | noUser :
      WalletLooked [⟨.findUser username, .ok none⟩] (.error (.notFound (.of ("user not found: " ++ username))))
  | unavailable (user : User) {fault : Fault} (h : registry.choose walletType = .error fault) :
      WalletLooked [⟨.findUser username, .ok (some user)⟩] (.error fault)
  | unanswered (w : WalletAsking) (chosen : registry.choose walletType = .ok (w.method, w.provider))
      (fault : ProviderFault) : WalletLooked (w.history username (.error fault)) (.error fault.toFault)
  | accountFault (w : WalletAsking) (chosen : registry.choose walletType = .ok (w.method, w.provider))
      (found : WalletBalance) (fault : Fault) :
      WalletLooked (w.history username (.ok found) ++ [⟨.readAccount w.user.id, .error fault⟩]) (.error fault)
  | noAccount (w : WalletAsking) (chosen : registry.choose walletType = .ok (w.method, w.provider))
      (found : WalletBalance) :
      WalletLooked (w.history username (.ok found) ++ [⟨.readAccount w.user.id, .ok none⟩])
        (.error (.notFound (.of ("account not found for user: " ++ username))))
  /-- The provider says how old its word is. -/
  | dated (w : WalletAsking) (chosen : registry.choose walletType = .ok (w.method, w.provider))
      {found : WalletBalance} (account : Account) {at' : Instant} (h : found.lastUpdated = some at') :
      WalletLooked (w.history username (.ok found) ++ [⟨.readAccount w.user.id, .ok (some account)⟩])
        (.ok (w.view found account at'))
  | undated (w : WalletAsking) (chosen : registry.choose walletType = .ok (w.method, w.provider))
      {found : WalletBalance} (account : Account) (h : found.lastUpdated = none) (now : Instant) :
      WalletLooked
        (w.history username (.ok found) ++ [⟨.readAccount w.user.id, .ok (some account)⟩, ⟨.now, now⟩])
        (.ok (w.view found account now))

end

section
variable {registry : Registry} {username walletType : String} {w : WalletAsking} {history : Service.History}
  {r : Except Fault WalletView}

/-- The rest of a wallet lookup, from the provider's answer on. -/
def afterAnswer (username : String) (w : WalletAsking) : Except ProviderFault WalletBalance → Serving WalletView
  | .error fault => throw fault.toFault
  | .ok found => Service.step (.readAccount w.user.id) >>= fun
    | .error fault => throw fault
    | .ok none => throw (.notFound (.of ("account not found for user: " ++ username)))
    | .ok (some account) =>
      match found.lastUpdated with
      | some at' => pure (w.view found account at')
      | none => Service.step .now >>= fun now => pure (w.view found account now)

theorem walletBalance_eq : walletBalance registry username walletType =
    Service.step (.findUser username) >>= fun
      | .error fault => throw fault
      | .ok none => throw (.notFound (.of ("user not found: " ++ username)))
      | .ok (some user) =>
        match registry.choose walletType with
        | .error fault => throw fault
        | .ok (method, provider) => Service.step .fresh >>= fun id =>
          Service.step (.walletBalance provider (method.walletId user.phoneNumber) id.text) >>=
            afterAnswer username ⟨user, method, provider, id⟩ := by
  refine congrArg (Program.ask (I := Service) (.findUser username)) (funext fun answer => ?_)
  rcases answer with fault | (_ | user)
  · rfl
  · rfl
  rcases registry.choose walletType with fault | ⟨method, provider⟩
  · rfl
  refine congrArg (Program.ask (I := Service) .fresh) (funext fun id => ?_)
  refine congrArg (Program.ask (I := Service) (.walletBalance _ _ _)) (funext fun answer => ?_)
  rcases answer with fault | found
  · rfl
  refine congrArg (Program.ask (I := Service) (.readAccount user.id)) (funext fun answer => ?_)
  rcases answer with fault | (_ | account)
  · rfl
  · rfl
  rcases found.lastUpdated with _ | at' <;> rfl

theorem looked_of_afterAnswer (chosen : registry.choose walletType = .ok (w.method, w.provider))
    {answer : Except ProviderFault WalletBalance} {rest : Service.History}
    (h : (afterAnswer username w answer).run.Yields rest r) :
    WalletLooked registry username walletType (w.history username answer ++ rest) r := by
  rcases answer with fault | found
  · obtain ⟨rfl, rfl⟩ := Attempt.yields_throw_iff.mp h
    exact .unanswered w chosen fault
  unfold afterAnswer at h
  obtain ⟨fault | (_ | account), rest, rfl, hrest⟩ := Service.yields_serving_step_iff.mp h
  · obtain ⟨rfl, rfl⟩ := Attempt.yields_throw_iff.mp hrest
    exact .accountFault w chosen found fault
  · obtain ⟨rfl, rfl⟩ := Attempt.yields_throw_iff.mp hrest
    exact .noAccount w chosen found
  rcases hdate : found.lastUpdated with _ | at' <;> simp only [hdate] at hrest
  · obtain ⟨now, _, rfl, hend⟩ := Service.yields_serving_step_iff.mp hrest
    obtain ⟨rfl, rfl⟩ := Attempt.yields_pure_iff.mp hend
    exact .undated w chosen account hdate now
  · obtain ⟨rfl, rfl⟩ := Attempt.yields_pure_iff.mp hrest
    exact .dated w chosen account hdate

theorem yields_of_afterAnswer (chosen : registry.choose walletType = .ok (w.method, w.provider))
    {answer : Except ProviderFault WalletBalance} {rest : Service.History}
    (h : (afterAnswer username w answer).run.Yields rest r) :
    (walletBalance registry username walletType).run.Yields (w.history username answer ++ rest) r := by
  rw [walletBalance_eq, Service.yields_serving_step_iff]
  refine ⟨.ok (some w.user), _, rfl, ?_⟩
  dsimp only
  rw [chosen]
  refine Service.yields_serving_step_iff.mpr ⟨w.id, _, rfl, ?_⟩
  exact Service.yields_serving_step_iff.mpr ⟨answer, rest, rfl, h⟩

/-- **All histories of a wallet lookup.** -/
theorem yields_walletBalance_iff :
    (walletBalance registry username walletType).run.Yields history r ↔
      WalletLooked registry username walletType history r := by
  constructor
  · rw [walletBalance_eq, Service.yields_serving_step_iff]
    rintro ⟨fault | (_ | user), rest, rfl, h⟩
    · obtain ⟨rfl, rfl⟩ := Attempt.yields_throw_iff.mp h
      exact .userFault fault
    · obtain ⟨rfl, rfl⟩ := Attempt.yields_throw_iff.mp h
      exact .noUser
    rcases hchosen : registry.choose walletType with fault | ⟨method, provider⟩ <;> simp only [hchosen] at h
    · obtain ⟨rfl, rfl⟩ := Attempt.yields_throw_iff.mp h
      exact .unavailable user hchosen
    obtain ⟨id, _, rfl, hasked⟩ := Service.yields_serving_step_iff.mp h
    obtain ⟨answer, rest, rfl, hanswered⟩ := Service.yields_serving_step_iff.mp hasked
    exact looked_of_afterAnswer (w := ⟨user, method, provider, id⟩) hchosen hanswered
  · rintro (fault | _ | ⟨user, hchosen⟩ | ⟨w, chosen, fault⟩ | ⟨w, chosen, found, fault⟩ | ⟨w, chosen, found⟩ |
      ⟨w, chosen, account, hdate⟩ | ⟨w, chosen, account, hdate, now⟩)
    · rw [walletBalance_eq]
      exact Service.yields_serving_step_iff.mpr ⟨.error fault, [], rfl, Attempt.yields_throw_iff.mpr ⟨rfl, rfl⟩⟩
    · rw [walletBalance_eq]
      exact Service.yields_serving_step_iff.mpr ⟨.ok none, [], rfl, Attempt.yields_throw_iff.mpr ⟨rfl, rfl⟩⟩
    · rw [walletBalance_eq]
      refine Service.yields_serving_step_iff.mpr ⟨.ok (some user), [], rfl, ?_⟩
      dsimp only
      rw [hchosen]
      exact Attempt.yields_throw_iff.mpr ⟨rfl, rfl⟩
    · have hrest : (afterAnswer username w (.error fault)).run.Yields [] (.error fault.toFault) :=
        Attempt.yields_throw_iff.mpr ⟨rfl, rfl⟩
      exact yields_of_afterAnswer chosen hrest
    all_goals
      refine yields_of_afterAnswer chosen (Service.yields_serving_step_iff.mpr ⟨_, _, rfl, ?_⟩)
      dsimp only
    · exact Attempt.yields_throw_iff.mpr ⟨rfl, rfl⟩
    · exact Attempt.yields_throw_iff.mpr ⟨rfl, rfl⟩
    · rw [hdate]
      exact Attempt.yields_pure_iff.mpr ⟨rfl, rfl⟩
    · rw [hdate]
      exact Service.yields_serving_step_iff.mpr ⟨now, [], rfl, Attempt.yields_pure_iff.mpr ⟨rfl, rfl⟩⟩

end

end WalletTopUp.TopUp
