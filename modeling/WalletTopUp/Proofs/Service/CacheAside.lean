import WalletTopUp.Proofs.Service.OnBehalf
import WalletTopUp.Proofs.Service.ReadBack

/-!
# The cache is put aside

A lookup is a plain reading of the ledger with the cache around it. The responder that answers a lookup could have
answered a plain reading in its place, and `lookup_cache_aside` compares the two. When the cache gives a text that can
be read, its value is the answer and nothing else is asked. However else the cache answers, the lookup asks the ledger
what the plain reading asks it and ends with the same value or the same fault. It writes nothing after a fault, and
after a value it writes once, which may fail: the value's text goes under the key that was asked for.

That text is read back as the value, but a balance of nothing loses its minus sign there. So an account with such a
balance is shown differently the second time (`sign_lost_in_cache`).
-/

namespace WalletTopUp

open Service (held?)

/-! ## What the cache gives -/

/-- The cache has given a text that writes a value. -/
def Usable {α : Type} [Json.Form α] (answer : Except String (Option String)) (a : α) : Prop :=
  ∃ text, answer = .ok (some text) ∧ (Json.decode text : Except Json.Failure α) = .ok a

section
variable {α : Type} [Json.Form α] {answer : Except String (Option String)} {a : α}

theorem held?_eq_some_iff : held? α answer = some a ↔ Usable answer a := by
  unfold Usable
  rcases answer with reason | _ | text
  · simp [held?]
  · simp [held?]
  · simp only [held?, Except.ok.injEq, Option.some.injEq, exists_eq_left']
    cases (Json.decode text : Except Json.Failure α) <;> simp [Except.toOption]

theorem held?_eq_none_iff : held? α answer = none ↔ ∀ a : α, ¬ Usable answer a := by
  simp only [← held?_eq_some_iff, Option.eq_none_iff_forall_ne_some, ne_eq]

end

/-! ## The lookup beside a plain reading -/

/-- How a lookup ends, which the cache has answered with `answer`, and how a plain reading ends in its place. -/
structure Aside (f : Facet) (username : String) (answer : Except String (Option String)) (history : Service.History)
    (r : Except Fault f.View) (read : Service.History) (plain : Except Fault f.View) : Prop where
  /-- What the cache has is the answer, and nothing else is asked. -/
  fromCache : ∀ v, Usable answer v → history = [⟨.readCache (f.key username), answer⟩] ∧ r = .ok v
  /-- The plain reading asks the repositories alone. -/
  reading : Service.Read f.view username read plain
  same : (∀ v : f.View, ¬ Usable answer v) → r = plain
  unwritten : (∀ v : f.View, ¬ Usable answer v) → ∀ fault, plain = .error fault →
    history = ⟨.readCache (f.key username), answer⟩ :: read
  /-- The value is written once, whatever becomes of it. Its text is read as the value, but a zero loses its sign. -/
  written : (∀ v : f.View, ¬ Usable answer v) → ∀ v, plain = .ok v → ∃ account outcome, v = f.view account ∧
    history = ⟨.readCache (f.key username), answer⟩ ::
      (read ++ [⟨.writeCache (f.key username) (Json.encode v) f.minutes, outcome⟩]) ∧
    Json.decode (Json.encode v) = .ok (f.view { account with balance := account.balance.plain }) ∧
    (¬ (account.balance.negative = true ∧ account.balance.magnitude = 0) → Json.decode (Json.encode v) = .ok v)

section
variable {f : Facet} {username : String} {history read : Service.History} {r plain : Except Fault f.View}
  {answer : Except String (Option String)}

theorem Service.Read.exists_account {α : Type} {view : Account → α} {a : α}
    (h : Service.Read view username read (.ok a)) : ∃ account, a = view account := by
  cases h with
  | read user account => exact ⟨account, rfl⟩

theorem aside_of_held {v : f.View} (hheld : held? f.View answer = some v)
    (hread : Service.Read f.view username read plain) :
    Aside f username answer [⟨.readCache (f.key username), answer⟩] (.ok v) read plain := by
  have hnever : ¬ ∀ v : f.View, ¬ Usable answer v := fun hnone => hnone v (held?_eq_some_iff.mp hheld)
  refine ⟨fun v' husable => ⟨rfl, ?_⟩, hread, fun hnone => absurd hnone hnever, fun hnone => absurd hnone hnever,
    fun hnone => absurd hnone hnever⟩
  rw [← held?_eq_some_iff, hheld] at husable
  rw [Option.some.inj husable]

theorem aside_of_failed {fault : Fault} (hheld : held? f.View answer = none)
    (hread : Service.Read f.view username read (.error fault)) :
    Aside f username answer (⟨.readCache (f.key username), answer⟩ :: read) (.error fault) read (.error fault) := by
  have hnone := held?_eq_none_iff.mp hheld
  exact ⟨fun v husable => absurd husable (hnone v), hread, fun _ => rfl, fun _ _ _ => rfl, nofun⟩

theorem aside_of_filled {v : f.View} (hheld : held? f.View answer = none)
    (hread : Service.Read f.view username read (.ok v)) (outcome : Except String Unit) :
    Aside f username answer (⟨.readCache (f.key username), answer⟩ ::
      (read ++ [⟨.writeCache (f.key username) (Json.encode v) f.minutes, outcome⟩])) (.ok v) read (.ok v) := by
  have hnone := held?_eq_none_iff.mp hheld
  refine ⟨fun v husable => absurd husable (hnone v), hread, fun _ => rfl, nofun, fun _ v' hv' => ?_⟩
  obtain rfl := Except.ok.inj hv'
  obtain ⟨account, rfl⟩ := hread.exists_account
  refine ⟨account, outcome, rfl, rfl, f.decode_text account, fun hsigned => ?_⟩
  rw [← Facet.text, f.decode_text, Decimal.plain_eq_self_iff.mpr hsigned]

end

/-- **The cache saves a reading and changes nothing.** A lookup of an account or a balance and a plain reading in its
place, answered by the same responder, both come to an end and compare as `Aside` says. -/
theorem lookup_cache_aside (f : Facet) (username : String) (respond : Service.Responder) :
    (∃ history r, (f.look username).run.Yields history r ∧ Answered respond [] history) ∧
      ∀ answer, answer = respond [] (.readCache (f.key username)) →
        (∃ read plain, (Service.readView f.view username).run.Yields read plain ∧
          Answered respond [⟨.readCache (f.key username), answer⟩] read) ∧
        ∀ history r read plain, (f.look username).run.Yields history r → Answered respond [] history →
          (Service.readView f.view username).run.Yields read plain →
          Answered respond [⟨.readCache (f.key username), answer⟩] read →
          Aside f username answer history r read plain := by
  refine ⟨?_, fun answer hanswer => ⟨?_, ?_⟩⟩
  · obtain ⟨history, r, hanswered, hyields⟩ := (f.look username).run.exists_answered respond []
    exact ⟨history, r, hyields, hanswered⟩
  · obtain ⟨read, plain, hanswered, hyields⟩ := (Service.readView f.view username).run.exists_answered respond
      [⟨.readCache (f.key username), answer⟩]
    exact ⟨read, plain, hyields, hanswered⟩
  intro history r read plain hlook hanswered hread hreadAnswered
  cases Service.yields_lookup_iff.mp hlook with
  | held hheld =>
    obtain ⟨hfirst, -⟩ := hanswered
    obtain rfl := hfirst.trans hanswer.symm
    exact aside_of_held hheld (Service.yields_readView_iff.mp hread)
  | failed hheld hplain =>
    obtain ⟨hfirst, hrest⟩ := hanswered
    obtain rfl := hfirst.trans hanswer.symm
    obtain ⟨rfl, rfl⟩ := hread.unique hreadAnswered (Service.yields_readView_iff.mpr hplain) hrest
    exact aside_of_failed hheld hplain
  | filled hheld hplain outcome =>
    obtain ⟨hfirst, hrest⟩ := hanswered
    obtain rfl := hfirst.trans hanswer.symm
    obtain ⟨hreading, -⟩ := answered_append_iff.mp hrest
    obtain ⟨rfl, rfl⟩ := hread.unique hreadAnswered (Service.yields_readView_iff.mpr hplain) hreading
    exact aside_of_filled hheld hplain outcome

/-! ## A cache that is out of order, and a balance that loses its sign -/

namespace CacheAside
open TopUp.Sample

/-- Nothing fails but the cache, both when it is read and when it is written. -/
def outage : Service.Responder := fun past question =>
  match question with
  | .readCache _ | .writeCache _ _ _ => .error "connection refused"
  | question => calm past question

def history (balance : Decimal) (found : Except String (Option String)) (outcome : Except String Unit) :
    Service.History :=
  [⟨.readCache (Facet.balance.key user.username), found⟩, ⟨.findUser user.username, .ok (some user)⟩,
    ⟨.readAccount user.id, .ok (some (account balance))⟩,
    ⟨.writeCache (Facet.balance.key user.username) (Json.encode (account balance).balanceView) Service.balanceMinutes,
      outcome⟩]

theorem yields_history (balance : Decimal) {found : Except String (Option String)}
    (hfound : held? BalanceView found = none) (outcome : Except String Unit) :
    (Facet.balance.look user.username).run.Yields (history balance found outcome)
      (.ok (account balance).balanceView) := by
  have hread : Service.Read Account.balanceView user.username
      [⟨.findUser user.username, .ok (some user)⟩, ⟨.readAccount user.id, .ok (some (account balance))⟩]
      (.ok (account balance).balanceView) := .read user (account balance)
  exact Service.yields_lookup_iff.mpr (.filled hfound hread outcome)

end CacheAside

open CacheAside TopUp.Sample in
theorem lookup_cache_aside_outage :
    Aside .balance user.username (.error "connection refused")
      (history hundred (.error "connection refused") (.error "connection refused"))
      (.ok (account hundred).balanceView)
      [⟨.findUser user.username, .ok (some user)⟩, ⟨.readAccount user.id, .ok (some (account hundred))⟩]
      (.ok (account hundred).balanceView) := by
  obtain ⟨-, haside⟩ := lookup_cache_aside .balance user.username outage
  apply (haside _ rfl).2
  · exact yields_history hundred rfl _
  · exact ⟨rfl, rfl, rfl, rfl, trivial⟩
  · exact Service.yields_readView_iff.mpr (.read user (account hundred))
  · exact ⟨rfl, rfl, trivial⟩

/-- The text that is put into the cache is not always read as the value that is returned: here the balance is what is
left of a small debt that is rounded off. -/
theorem sign_lost_in_cache :
    (Facet.balance.look TopUp.Sample.user.username).run.Yields
        (CacheAside.history ReadBack.indebted.balance (.ok none) (.ok ())) (.ok ReadBack.indebted) ∧
      (Json.decode (Json.encode ReadBack.indebted) : Except Json.Failure BalanceView) ≠ .ok ReadBack.indebted := by
  refine ⟨CacheAside.yields_history ReadBack.indebted.balance rfl (.ok ()), fun hread => ?_⟩
  have hplain := Facet.balance.decode_text (TopUp.Sample.account ReadBack.indebted.balance)
  cases congrArg (·.balance.negative) (Except.ok.inj (hplain.symm.trans hread))

end WalletTopUp
