import WalletTopUp.Proofs.Service.Coherence
import WalletTopUp.Proofs.TopUp.Overlap

/-!
# A lookup during a top-up

A lookup may run while the account of its user is debited and the entries of the user are deleted. Entries have no
version, and nobody holds a lock, so a lookup that has read the account before the debit may still put what it has read
into the cache when the deletions are over (`stale_after_crossing`). That is the only way in which the cache becomes
wrong (`race_ends`): all other orders leave entries that are current, or none. For after a debit an entry that is there
in the end has been put there by the lookup, after the last deletion of its key, and what the lookup puts there it has
read either before the debit or after it.
-/

namespace WalletTopUp

/-! ## The top-up around its debit -/

namespace TopUp
open Service (isWrite)

section
variable {registry : Registry} {username : String} {request : TopUpRequest} {history : Service.History}
  {r : Except Stop Receipt}

theorem not_mem_writeCache (h : (topUp registry username request).Yields history r) {key value : String}
    {minutes : Nat} {answer : Except String Unit} :
    (⟨.writeCache key value minutes, answer⟩ : Service.Entry) ∉ history := by
  obtain ⟨first, hfirst, rfl⟩ := yields_topUp_iff.mp h
  have hcounted : (⟨.writeCache key value minutes, answer⟩ : Service.Entry) ∉ counted request r := by
    rcases r with (fault | _) | receipt <;> simp [counted]
  rw [List.mem_append, not_or]
  refine ⟨?_, hcounted⟩
  rcases yields_execute_iff.mp hfirst with ⟨fault, hrefused, -⟩ | ⟨p, rest, -, rfl, hsettled⟩
  · rcases hrefused.history_cases with rfl | ⟨answer, rfl⟩ | ⟨user, answer, rfl⟩ <;> simp
  · rcases hsettled with _ | _ | _ | _ | _ | _ <;> simp [Placing.history, Placing.debitHistory]

/-- The account is read before it is written. After that it is read again, and when it is found the transaction is
handed on, but not earlier. -/
theorem around_write {first rest : Service.History} {account : Account} {rows : Nat}
    (h : (topUp registry username request).Yields (first ++ ⟨.writeBalance account, .ok rows⟩ :: rest) r) :
    ∃ userId read reread after, (⟨.readAccount userId, .ok (some read)⟩ : Service.Entry) ∈ first ∧
      (∀ user t, (⟨.dispatch user t, ()⟩ : Service.Entry) ∉ first) ∧ rest = ⟨.readAccount userId, reread⟩ :: after ∧
        ((∃ current, reread = .ok (some current)) → ∃ t, (⟨.dispatch username t, ()⟩ : Service.Entry) ∈ after) := by
  have hunsent : ∀ user t, (⟨.dispatch user t, ()⟩ : Service.Entry) ∉ first := by
    obtain ⟨p, d, -, -, -, rfl⟩ := before_write_of_yields h
    simp [Placing.sinceRead]
  -- the write is the only one
  have honce := (countP_isWrite_of_yields h).2
  have hwrite : isWrite ⟨.writeBalance account, .ok rows⟩ = true := rfl
  rw [List.countP_append, List.countP_cons, if_pos hwrite] at honce
  obtain ⟨whole, hwhole, hsplit⟩ := yields_topUp_iff.mp h
  have hmem : (⟨.writeBalance account, .ok rows⟩ : Service.Entry) ∈ whole := by
    have hall : (⟨.writeBalance account, .ok rows⟩ : Service.Entry) ∈ whole ++ counted request r := by
      rw [← hsplit]
      exact List.mem_append_right _ List.mem_cons_self
    refine (List.mem_append.mp hall).resolve_right ?_
    rcases r with (fault | _) | receipt <;> simp [counted]
  rcases yields_execute_iff.mp hwhole with ⟨fault, hrefused, -⟩ | ⟨p, settled, -, rfl, hsettled⟩
  · exact absurd hmem hrefused.not_mem_write
  obtain ⟨before, reread, after, rfl, hdispatch, -⟩ := hsettled.after_write (by simpa [Placing.history] using hmem)
  have hparts : (p.history username ++ before) ++ ⟨.writeBalance account, .ok rows⟩ ::
      (⟨.readAccount p.user.id, reread⟩ :: after ++ counted request r) =
        first ++ ⟨.writeBalance account, .ok rows⟩ :: rest := by
    rw [hsplit]
    simp
  obtain ⟨rfl, -, rfl⟩ := append_cons_inj_of_countP hparts hwrite (by omega) (by omega)
  refine ⟨p.user.id, p.account, reread, _, by simp [Placing.history], hunsent, rfl, fun hfound => ?_⟩
  obtain ⟨t, ht⟩ := hdispatch.mpr hfound
  have hbefore : (⟨.dispatch username t, ()⟩ : Service.Entry) ∉ before := fun hmem =>
    hunsent username t (List.mem_append_right _ hmem)
  have hafter : (⟨.dispatch username t, ()⟩ : Service.Entry) ∈ after := by simpa [hbefore] using ht
  exact ⟨t, List.mem_append_left _ hafter⟩

end

end TopUp

/-! ## The lookup around its reading -/

section
variable {f : Facet} {username : String} {history : Service.History} {r : Except Fault f.View}

theorem Facet.isWrite_of_look (h : (f.look username).run.Yields history r) :
    ∀ entry ∈ history, Service.isWrite entry = false := by
  rcases Service.yields_lookup_iff.mp h with _ | ⟨_, hread⟩ | ⟨_, hread, _⟩
  · simp [Service.isWrite]
  all_goals
    cases hread <;> simp [Service.isWrite]

theorem Facet.read_of_look (h : (f.look username).run.Yields history r) {key value : String} {minutes : Nat}
    {answer : Except String Unit} (hmem : (⟨.writeCache key value minutes, answer⟩ : Service.Entry) ∈ history) :
    ∃ user account, key = f.key username ∧ value = f.text account ∧ minutes = f.minutes ∧
      (⟨.findUser username, .ok (some user)⟩ : Service.Entry) ∈ history ∧
      (⟨.readAccount user.id, .ok (some account)⟩ : Service.Entry) ∈ history ∧
        ∀ userId answer, (⟨.readAccount userId, answer⟩ : Service.Entry) ∈ history →
          userId = user.id ∧ answer = .ok (some account) := by
  rcases Service.yields_lookup_iff.mp h with _ | ⟨_, hread⟩ | @⟨_, _, read, a, hread, written⟩
  · simp at hmem
  · cases hread <;> simp at hmem
  · cases hread with
    | read user account =>
      obtain ⟨⟨rfl, rfl, rfl⟩, -⟩ : (key = f.key username ∧ value = f.text account ∧ minutes = f.minutes) ∧
        answer = written := by simpa [Facet.text] using hmem
      exact ⟨user, account, rfl, rfl, rfl, by simp, by simp, by simp⟩

end

/-! ## Moves -/

/-- An operation that has failed. -/
def Service.failed : Service.Entry → Bool
  | ⟨.findUser _, .error _⟩ | ⟨.readAccount _, .error _⟩ | ⟨.writeBalance _, .error _⟩ | ⟨.readCache _, .error _⟩
  | ⟨.writeCache _ _ _, .error _⟩ | ⟨.orderTopUp _ _, .error _⟩ | ⟨.walletBalance _ _ _, .error _⟩ => true
  | _ => false

/-- A deletion or an attempt to send that has failed. -/
def SideEffect.failed : SideEffect.Entry → Bool
  | ⟨.deleteKey _, .error _⟩ | ⟨.deletePattern _, .error _⟩ | ⟨.send _, .error _⟩ => true
  | _ => false

namespace Race

/-- Who takes part: the lookup, the top-up, and the tasks that follow it. -/
inductive Party (username : String) where
  | lookup
  | topUp
  | task (i : Fin (SideEffect.tasks username).length)
  deriving DecidableEq

/-- The questions of operations and of tasks. -/
abbrev Both : Interface := ⟨Service.Question ⊕ SideEffect.Question, Sum.elim Service.Answer SideEffect.Answer⟩

def service (entry : Service.Entry) : Both.Entry := ⟨.inl entry.1, entry.2⟩

def effect (entry : SideEffect.Entry) : Both.Entry := ⟨.inr entry.1, entry.2⟩

abbrev Log (username : String) : Type := List (Party username × Both.Entry)

/-- From one state to the next the question of an entry may be answered as the entry says. Nothing fails. -/
def Serves (users : String → Option User) (s : Store) (entry : Both.Entry) (s' : Store) : Prop :=
  match entry with
  | ⟨.inl question, answer⟩ => s.Serves users ⟨question, answer⟩ s' ∧ Service.failed ⟨question, answer⟩ = false
  | ⟨.inr question, answer⟩ => SideEffect.failed ⟨question, answer⟩ = false ∧ s'.ledger = s.ledger ∧
    ∃ transport sends sends',
      SideEffect.Serves (fun _ => false) transport ⟨s.cache, sends⟩ ⟨question, answer⟩ ⟨s'.cache, sends'⟩

def debits : Both.Entry → Bool
  | ⟨.inl question, answer⟩ => Service.isWrite ⟨question, answer⟩
  | ⟨.inr _, _⟩ => false

def clears (key : String) : Both.Entry → Bool
  | ⟨.inl _, _⟩ => false
  | ⟨.inr question, answer⟩ => SideEffect.clears key ⟨question, answer⟩

theorem service_inj {entry entry' : Service.Entry} : service entry = service entry' ↔ entry = entry' := by
  constructor
  · obtain ⟨question, answer⟩ := entry
    obtain ⟨question', answer'⟩ := entry'
    intro h
    cases h
    rfl
  · exact congrArg service

theorem service_ne_effect {entry : Service.Entry} {entry' : SideEffect.Entry} : service entry ≠ effect entry' := nofun

theorem mem_map_service {entry : Service.Entry} {history : Service.History} :
    service entry ∈ history.map service ↔ entry ∈ history :=
  List.mem_map_of_injective fun _ _ => service_inj.mp

section
variable {users : String → Option User} {s s' : Store} {entry : Both.Entry} {key : String} {found : CacheEntry}

theorem Serves.ledger_eq (h : Serves users s entry s') (hdebits : debits entry = false) : s'.ledger = s.ledger := by
  obtain ⟨question | question, answer⟩ := entry
  · obtain ⟨hserves, -⟩ := h
    cases question with
    | findUser | readAccount | readCache => exact congrArg Store.ledger hserves.2
    | writeBalance => cases hdebits
    | writeCache =>
      rcases hserves with rfl | ⟨-, rfl⟩
      · rfl
      · rfl
    | _ => exact congrArg Store.ledger hserves
  · exact h.2.1

theorem lookup?_of_effect {fails : SideEffect.Drop → Bool} {transport : Nat → Except String Delivery}
    {x x' : SideEffect.Surroundings} {entry : SideEffect.Entry} (h : SideEffect.Serves fails transport x entry x')
    (key : String) :
    x'.cache.lookup? key = if SideEffect.clears key entry then none else x.cache.lookup? key := by
  have htraced := SideEffect.traced_of_served (Served.cons h (.nil x'))
  rw [htraced.left, CacheStore.lookup?_drop]
  simp

theorem Serves.cache_cases (h : Serves users s entry s') :
    (∀ key, s'.cache.lookup? key = if clears key entry then none else s.cache.lookup? key) ∨
      ∃ key value minutes answer, entry = service ⟨.writeCache key value minutes, answer⟩ ∧
        s'.cache = s.cache.put key ⟨value, some minutes⟩ := by
  obtain ⟨question | question, answer⟩ := entry
  · have hsame : s'.cache = s.cache → ∀ key, s'.cache.lookup? key = s.cache.lookup? key := by
      intro hcache key
      rw [hcache]
    obtain ⟨hserves, hfailed⟩ := h
    cases question with
    | findUser | readAccount | readCache => exact .inl (hsame (congrArg Store.cache hserves.2))
    | writeBalance =>
      rcases answer with fault | rows
      · exact .inl (hsame (congrArg Store.cache hserves))
      · obtain ⟨-, rfl⟩ := hserves
        exact .inl (hsame rfl)
    | writeCache key value minutes =>
      rcases hserves with rfl | ⟨-, rfl⟩
      · exact .inr ⟨key, value, minutes, answer, rfl, rfl⟩
      · exact .inl (hsame rfl)
    | _ => exact .inl (hsame (congrArg Store.cache hserves))
  · obtain ⟨-, -, transport, sends, sends', heffect⟩ := h
    exact .inl (lookup?_of_effect heffect)

theorem Serves.lookup?_cases (h : Serves users s entry s') (hfound : s'.cache.lookup? key = some found) :
    (s.cache.lookup? key = some found ∧ clears key entry = false) ∨
      ∃ minutes answer, entry = service ⟨.writeCache key found.value minutes, answer⟩ := by
  rcases h.cache_cases with hlookup | ⟨other, value, minutes, answer, rfl, hput⟩
  · rw [hlookup] at hfound
    split at hfound
    · cases hfound
    next hclears => exact .inl ⟨hfound, eq_false_of_ne_true hclears⟩
  · rw [hput] at hfound
    by_cases hkey : key = other
    · subst hkey
      rw [CacheStore.lookup?_put_self] at hfound
      cases hfound
      exact .inr ⟨minutes, answer, rfl⟩
    · exact .inl ⟨(CacheStore.lookup?_put_of_ne _ _ hkey).symm.trans hfound, rfl⟩

theorem Serves.lookup?_kept (h : Serves users s entry s') (hfound : s.cache.lookup? key = some found)
    (hclears : clears key entry = false)
    (hput : ∀ value minutes answer, entry = service ⟨.writeCache key value minutes, answer⟩ →
      found = ⟨value, some minutes⟩) :
    s'.cache.lookup? key = some found := by
  rcases h.cache_cases with hlookup | ⟨other, value, minutes, answer, rfl, hcache⟩
  · rwa [hlookup, hclears, if_neg Bool.false_ne_true]
  · rw [hcache]
    by_cases hkey : key = other
    · subst hkey
      rw [hput value minutes answer rfl]
      exact CacheStore.lookup?_put_self _ _ _
    · exact (CacheStore.lookup?_put_of_ne _ _ hkey).trans hfound

end

/-! ## Along a log -/

section
variable {users : String → Option User} {username : String} {s s' : Store} {log : Log username} {i : Party username}
  {key : String} {found : CacheEntry}

/-- A part of a log in which no balance is written. -/
def Quiet (log : Log username) : Prop := ∀ x ∈ log, debits x.2 = false

theorem ledger_of_quiet (h : Served (Serves users) s (log.map (·.2)) s') (hquiet : Quiet log) :
    s'.ledger = s.ledger := by
  induction log generalizing s with
  | nil => rw [served_nil_iff.mp h]
  | cons x log ih =>
    obtain ⟨hx, hrest⟩ := List.forall_mem_cons.mp hquiet
    obtain ⟨t, hserves, hserved⟩ := served_cons_iff.mp h
    rw [ih hserved hrest, hserves.ledger_eq hx]

theorem served_split {before after : Log username} {x : Party username × Both.Entry}
    (h : Served (Serves users) s ((before ++ x :: after).map (·.2)) s') :
    ∃ t u, Served (Serves users) s (before.map (·.2)) t ∧ Serves users t x.2 u ∧
      Served (Serves users) u (after.map (·.2)) s' := by
  rw [List.map_append, List.map_cons] at h
  obtain ⟨t, hbefore, hrest⟩ := served_append_iff.mp h
  obtain ⟨u, hx, hafter⟩ := served_cons_iff.mp hrest
  exact ⟨t, u, hbefore, hx, hafter⟩

theorem read_of_quiet (h : Served (Serves users) s (log.map (·.2)) s') (hquiet : Quiet log) {userId : Json.Word}
    {answer : Except Fault (Option Account)} (hmem : (i, service ⟨.readAccount userId, answer⟩) ∈ log) :
    answer = .ok (s.ledger.account? userId) := by
  obtain ⟨before, after, rfl⟩ := List.append_of_mem hmem
  have hbefore : Quiet before := fun x hx => hquiet x (List.mem_append_left _ hx)
  obtain ⟨t, u, hfirst, ⟨⟨hanswer, -⟩, hfailed⟩, -⟩ := served_split h
  rw [← ledger_of_quiet hfirst hbefore]
  rcases answer with fault | account
  · cases hfailed
  · exact congrArg Except.ok (eq_of_answered hanswer)

theorem accountOf?_of_read {ledger : Ledger} {user : User} {account : Account} (huser : users username = some user)
    (hread : (.ok (some account) : Except Fault _) = .ok (ledger.account? user.id)) :
    ledger.accountOf? users username = some account :=
  Option.bind_eq_some_iff.mpr ⟨user, huser, (Except.ok.inj hread).symm⟩

theorem found_of_served (h : Served (Serves users) s (log.map (·.2)) s') {answer : Except Fault (Option User)}
    (hmem : (i, service ⟨.findUser username, answer⟩) ∈ log) : answer = .ok (users username) := by
  obtain ⟨t, u, ⟨hanswer, -⟩, hfailed⟩ := h.exists_of_mem (List.mem_map_of_mem hmem)
  rcases answer with fault | user
  · cases hfailed
  · exact congrArg Except.ok (eq_of_answered hanswer)

/-- An entry of the cache was there all the time, or it has been put there and not been deleted since. -/
theorem lookup?_of_served (h : Served (Serves users) s (log.map (·.2)) s')
    (hfound : s'.cache.lookup? key = some found) :
    (s.cache.lookup? key = some found ∧ ∀ x ∈ log, clears key x.2 = false) ∨
      ∃ before i minutes answer after,
        log = before ++ (i, service ⟨.writeCache key found.value minutes, answer⟩) :: after ∧
          ∀ x ∈ after, clears key x.2 = false := by
  induction log generalizing s with
  | nil =>
    rw [served_nil_iff.mp h] at hfound
    exact .inl ⟨hfound, by simp⟩
  | cons x log ih =>
    obtain ⟨t, hserves, hserved⟩ := served_cons_iff.mp h
    rcases ih hserved with ⟨hthere, hclears⟩ | ⟨before, i, minutes, answer, after, rfl, hclears⟩
    · rcases hserves.lookup?_cases hthere with ⟨hfirst, hx⟩ | ⟨minutes, answer, hx⟩
      · exact .inl ⟨hfirst, List.forall_mem_cons.mpr ⟨hx, hclears⟩⟩
      · exact .inr ⟨[], x.1, minutes, answer, log, by rw [← hx]; rfl, hclears⟩
    · exact .inr ⟨x :: before, i, minutes, answer, after, rfl, hclears⟩

theorem lookup?_kept_of_served (h : Served (Serves users) s (log.map (·.2)) s')
    (hfound : s.cache.lookup? key = some found) (hclears : ∀ x ∈ log, clears key x.2 = false)
    (hput : ∀ i value minutes answer, (i, service ⟨.writeCache key value minutes, answer⟩) ∈ log →
      found = ⟨value, some minutes⟩) : s'.cache.lookup? key = some found := by
  induction log generalizing s with
  | nil => rwa [served_nil_iff.mp h]
  | cons x log ih =>
    obtain ⟨i, entry⟩ := x
    obtain ⟨hx, hrest⟩ := List.forall_mem_cons.mp hclears
    obtain ⟨t, hserves, hserved⟩ := served_cons_iff.mp h
    have hkept : t.cache.lookup? key = some found := hserves.lookup?_kept hfound hx (by
      rintro value minutes answer rfl
      exact hput i value minutes answer List.mem_cons_self)
    exact ih hserved hkept hrest fun i value minutes answer hmem =>
      hput i value minutes answer (List.mem_cons_of_mem _ hmem)

end

end Race

/-! ## The race -/

open Race in
/-- A lookup of a user, a top-up of the same user and its tasks run at once, each to its end. A task takes its steps
after the transaction has been handed on. -/
structure Race (users : String → Option User) (registry : Registry) (p : Publisher) (username : String)
    (request : TopUpRequest) (f : Facet) (s : Store) (log : Log username) (s' : Store) : Prop where
  looked : ∃ history r, (f.look username).run.Yields history r ∧ entriesOf .lookup log = history.map service
  toppedUp : ∃ history r, (TopUp.topUp registry username request).Yields history r ∧
    entriesOf .topUp log = history.map service
  started : ∀ before i entry after, log = before ++ (.task i, entry) :: after →
    ∃ t, (.topUp, service ⟨.dispatch username t, ()⟩) ∈ before
  followed : ∀ t, (.topUp, service ⟨.dispatch username t, ()⟩) ∈ log → ∀ i, ∃ history outcome,
    (SideEffect.runs p username t i).Yields history outcome ∧ entriesOf (.task i) log = history.map effect
  served : Served (Serves users) s (log.map (·.2)) s'

namespace Race

section
variable {users : String → Option User} {registry : Registry} {p : Publisher} {username : String}
  {request : TopUpRequest} {f : Facet} {s s' : Store} {log before after : Log username} {i : Party username}

theorem split (h : Race users registry p username request f s log s') {x : Party username × Both.Entry}
    (hlog : log = before ++ x :: after) :
    ∃ t u, Served (Serves users) s (before.map (·.2)) t ∧ Serves users t x.2 u ∧
      Served (Serves users) u (after.map (·.2)) s' :=
  served_split (hlog ▸ h.served)

/-! ### Who does what -/

theorem effect_of_task (h : Race users registry p username request f s log s')
    {j : Fin (SideEffect.tasks username).length} {entry : Both.Entry} (hmem : (.task j, entry) ∈ log) :
    ∃ e, entry = effect e := by
  obtain ⟨before, after, rfl⟩ := List.append_of_mem hmem
  obtain ⟨t, ht⟩ := h.started before j entry after rfl
  obtain ⟨history, outcome, -, hentries⟩ := h.followed t (List.mem_append_left _ ht) j
  have hmem' : entry ∈ history.map effect := hentries ▸ mem_entriesOf.mpr hmem
  obtain ⟨e, -, rfl⟩ := List.mem_map.mp hmem'
  exact ⟨e, rfl⟩

theorem lookup_of_put (h : Race users registry p username request f s log s') {key value : String} {minutes : Nat}
    {answer : Except String Unit} (hmem : (i, service ⟨.writeCache key value minutes, answer⟩) ∈ log) :
    i = .lookup := by
  cases i with
  | lookup => rfl
  | topUp =>
    obtain ⟨history, r, hyields, hentries⟩ := h.toppedUp
    have hput : service ⟨.writeCache key value minutes, answer⟩ ∈ history.map service :=
      hentries ▸ mem_entriesOf.mpr hmem
    exact absurd (mem_map_service.mp hput) (TopUp.not_mem_writeCache hyields)
  | task j =>
    obtain ⟨e, he⟩ := h.effect_of_task hmem
    exact absurd he service_ne_effect

theorem topUp_of_debits (h : Race users registry p username request f s log s') {entry : Both.Entry}
    (hmem : (i, entry) ∈ log) (hdebits : debits entry = true) : i = .topUp := by
  cases i with
  | lookup =>
    obtain ⟨history, r, hyields, hentries⟩ := h.looked
    have hentry : entry ∈ history.map service := hentries ▸ mem_entriesOf.mpr hmem
    obtain ⟨e, he, rfl⟩ := List.mem_map.mp hentry
    have hwrite : Service.isWrite e = false := Facet.isWrite_of_look hyields e he
    exact absurd hdebits (by simp [debits, service, hwrite])
  | topUp => rfl
  | task j =>
    obtain ⟨e, rfl⟩ := h.effect_of_task hmem
    cases hdebits

theorem quiet_around (h : Race users registry p username request f s log s') {entry : Both.Entry}
    (hlog : log = before ++ (.topUp, entry) :: after) (hdebits : debits entry = true) : Quiet before ∧ Quiet after := by
  obtain ⟨history, r, hyields, hentries⟩ := h.toppedUp
  have honce : (entriesOf .topUp log).countP debits ≤ 1 := by
    rw [hentries, List.countP_map]
    exact (TopUp.countP_isWrite_of_yields hyields).2
  rw [hlog, entriesOf_append, entriesOf_cons_self, List.countP_append, List.countP_cons, if_pos hdebits] at honce
  have hquiet : ∀ part : Log username, part ⊆ log → (entriesOf .topUp part).countP debits = 0 → Quiet part := by
    rintro part hpart hcount ⟨j, entry'⟩ hx
    refine eq_false_of_ne_true fun hentry => ?_
    obtain rfl := h.topUp_of_debits (hpart hx) hentry
    exact List.countP_eq_zero.mp hcount entry' (mem_entriesOf.mpr hx) hentry
  refine ⟨hquiet before ?_ (by omega), hquiet after ?_ (by omega)⟩
  · rw [hlog]
    exact List.subset_append_left _ _
  · rw [hlog]
    exact fun x hx => List.mem_append_right _ (List.mem_cons_of_mem _ hx)

/-! ### The deletion -/

theorem exists_clears (h : Race users registry p username request f s log s') {t : Transaction}
    (hdispatch : (.topUp, service ⟨.dispatch username t, ()⟩) ∈ log) (f' : Facet) :
    ∃ i entry, (.task i, entry) ∈ log ∧ clears (f'.key username) entry = true := by
  obtain ⟨i, hi⟩ : ∃ i, (SideEffect.tasks username).get i = .drop (.key (f'.key username)) := by
    refine List.mem_iff_get.mp (SideEffect.drop_mem_tasks.mpr ?_)
    cases f' <;> simp [SideEffect.drops, SideEffect.userDrops, Facet.key]
  obtain ⟨history, outcome, hyields, hentries⟩ := h.followed t hdispatch i
  rw [SideEffect.runs, hi] at hyields
  have hdrop : (SideEffect.runDrop (.key (f'.key username))).Yields history outcome := hyields
  obtain ⟨entry, n, rfl, hdeletion, -⟩ := SideEffect.exists_deletion_of_yields_runDrop hdrop
  have hmem : (.task i, effect entry) ∈ log := by
    rw [← mem_entriesOf, hentries]
    exact List.mem_singleton_self _
  refine ⟨i, effect entry, hmem, ?_⟩
  obtain ⟨u, v, -, -, transport, sends, sends', hserves⟩ := h.served.exists_of_mem (List.mem_map_of_mem hmem)
  have hok : n.isOk = true := (hserves.deleted hdeletion).1
  rcases n with reason | n
  · cases hok
  · change SideEffect.clears (f'.key username) entry = true
    simp [SideEffect.clears, hdeletion, SideEffect.Drop.covers]

theorem around_debit (h : Race users registry p username request f s log s') {account : Account} {rows : Nat}
    (hlog : log = before ++ (.topUp, service ⟨.writeBalance account, .ok rows⟩) :: after) :
    ∃ userId read reread, (.topUp, service ⟨.readAccount userId, .ok (some read)⟩) ∈ before ∧
      (∀ t, (.topUp, service ⟨.dispatch username t, ()⟩) ∉ before) ∧
      (.topUp, service ⟨.readAccount userId, reread⟩) ∈ after ∧
        ((∃ current, reread = .ok (some current)) → ∃ t, (.topUp, service ⟨.dispatch username t, ()⟩) ∈ after) := by
  obtain ⟨history, r, hyields, hentries⟩ := h.toppedUp
  rw [hlog, entriesOf_append, entriesOf_cons_self] at hentries
  obtain ⟨first, _, rfl, hfirst, htail⟩ := List.map_eq_append_iff.mp hentries.symm
  obtain ⟨w, rest, rfl, hw, hrest⟩ := List.map_eq_cons_iff.mp htail
  obtain rfl := service_inj.mp hw
  obtain ⟨userId, read, reread, tail, hread, hunsent, rfl, hsent⟩ := TopUp.around_write hyields
  have hbefore : ∀ {entry}, (.topUp, service entry) ∈ before ↔ entry ∈ first := by
    intro entry
    rw [← mem_entriesOf, ← hfirst, mem_map_service]
  have hafter : ∀ {entry}, (.topUp, service entry) ∈ after ↔ entry ∈ ⟨.readAccount userId, reread⟩ :: tail := by
    intro entry
    rw [← mem_entriesOf, ← hrest, mem_map_service]
  refine ⟨userId, read, reread, hbefore.mpr hread, fun t => mt hbefore.mp (hunsent username t),
    hafter.mpr List.mem_cons_self, fun hfound => ?_⟩
  obtain ⟨t, ht⟩ := hsent hfound
  exact ⟨t, hafter.mpr (List.mem_cons_of_mem _ ht)⟩

theorem clears_after (h : Race users registry p username request f s log s') {account : Account} {rows : Nat}
    (hlog : log = before ++ (.topUp, service ⟨.writeBalance account, .ok rows⟩) :: after) (f' : Facet) :
    ∃ x ∈ after, clears (f'.key username) x.2 = true := by
  obtain ⟨hquiet, hquiet'⟩ := h.quiet_around hlog rfl
  obtain ⟨userId, read, reread, hread, hunsent, hreread, hsent⟩ := h.around_debit hlog
  -- the account has been there, so it is found again
  obtain ⟨t, u, hserved, ⟨⟨-, rfl⟩, -⟩, hserved'⟩ := h.split hlog
  have hthere : (.ok (some read) : Except Fault _) = .ok (s.ledger.account? userId) :=
    read_of_quiet hserved hquiet hread
  have hagain : reread = .ok ((t.ledger.write account).account? userId) := read_of_quiet hserved' hquiet' hreread
  have hsome : ((t.ledger.write account).account? userId).isSome = true := by
    rw [Ledger.isSome_account?_write, ledger_of_quiet hserved hquiet, ← Except.ok.inj hthere]
    rfl
  obtain ⟨current, hcurrent⟩ := Option.isSome_iff_exists.mp hsome
  obtain ⟨sent, hsent⟩ := hsent ⟨current, hagain.trans (congrArg Except.ok hcurrent)⟩
  have hlogged : (.topUp, service ⟨.dispatch username sent, ()⟩) ∈ log := by
    rw [hlog]
    exact List.mem_append_right _ (List.mem_cons_of_mem _ hsent)
  obtain ⟨i, entry, hmem, hclears⟩ := h.exists_clears hlogged f'
  -- no task begins before the debit
  have hlate : (.task i, entry) ∉ before := by
    intro hearly
    obtain ⟨before, between, rfl⟩ := List.append_of_mem hearly
    obtain ⟨t, ht⟩ := h.started before i entry _ (by rw [hlog, List.append_assoc, List.cons_append])
    exact hunsent t (List.mem_append_left _ ht)
  rw [hlog] at hmem
  rcases List.mem_cons.mp ((List.mem_append.mp hmem).resolve_left hlate) with heq | hafter
  · cases heq
  · exact ⟨_, hafter, hclears⟩

/-! ### The end -/

/-- The lookup reads the account before the debit, and puts what it has read into the cache after the last deletion of
its key. -/
def Straddles (f : Facet) (username : String) (log : Log username) : Prop :=
  ∃ before account written between value minutes answer after,
    log = before ++ (.topUp, service ⟨.writeBalance account, written⟩) ::
      (between ++ (.lookup, service ⟨.writeCache (f.key username) value minutes, answer⟩) :: after) ∧
    (∃ userId read, (.lookup, service ⟨.readAccount userId, read⟩) ∈ before) ∧
      ∀ x ∈ after, clears (f.key username) x.2 = false

/-- What the user's entries of the cache are in the end. -/
structure Ends (users : String → Option User) (username : String) (f : Facet) (s : Store) (log : Log username)
    (s' : Store) : Prop where
  current : ∀ f' entry, s'.cache.lookup? (Facet.key f' username) = some entry →
    Store.Current users s'.ledger f' username entry.value ∨ f' = f ∧ Straddles f username log
  /-- In the one order in which the entry is not deleted again it says what the ledger was before the debit. -/
  straddled : Straddles f username log → ∃ account, s.ledger.accountOf? users username = some account ∧
    s'.cache.lookup? (f.key username) = some ⟨f.text account, some f.minutes⟩

theorem read_of_put (h : Race users registry p username request f s log s') {key value : String} {minutes : Nat}
    {answer : Except String Unit} (hmem : (i, service ⟨.writeCache key value minutes, answer⟩) ∈ log) :
    ∃ user account, key = f.key username ∧ value = f.text account ∧ minutes = f.minutes ∧ users username = some user ∧
      (.lookup, service ⟨.readAccount user.id, .ok (some account)⟩) ∈ log ∧
        ∀ userId answer, (.lookup, service ⟨.readAccount userId, answer⟩) ∈ log →
          userId = user.id ∧ answer = .ok (some account) := by
  obtain rfl := h.lookup_of_put hmem
  obtain ⟨history, r, hyields, hentries⟩ := h.looked
  have hhistory : ∀ {entry}, (Party.lookup, service entry) ∈ log ↔ entry ∈ history := by
    intro entry
    rw [← mem_entriesOf, hentries, mem_map_service]
  obtain ⟨user, account, hkey, hvalue, hminutes, huser, hread, hall⟩ := Facet.read_of_look hyields (hhistory.mp hmem)
  have hfound : (.ok (some user) : Except Fault _) = .ok (users username) :=
    found_of_served h.served (hhistory.mpr huser)
  exact ⟨user, account, hkey, hvalue, hminutes, (Except.ok.inj hfound).symm, hhistory.mpr hread,
    fun userId answer hmem => hall userId answer (hhistory.mp hmem)⟩

theorem exists_debit (h : Race users registry p username request f s log s') (hdebit : ¬ Quiet log) :
    ∃ before account rows after, log = before ++ (.topUp, service ⟨.writeBalance account, .ok rows⟩) :: after := by
  simp only [Quiet, not_forall, Bool.not_eq_false] at hdebit
  obtain ⟨⟨i, entry⟩, hmem, hdebits⟩ := hdebit
  obtain rfl := h.topUp_of_debits hmem hdebits
  obtain ⟨t, u, hserves⟩ := h.served.exists_of_mem (List.mem_map_of_mem hmem)
  obtain ⟨before, after, rfl⟩ := List.append_of_mem hmem
  obtain ⟨question | question, answer⟩ := entry
  · obtain ⟨account, written, hwrite⟩ := TopUp.isWrite_iff.mp hdebits
    cases hwrite
    rcases written with fault | rows
    · cases hserves.2
    · exact ⟨before, account, rows, after, rfl⟩
  · cases hdebits

theorem current_of_quiet (h : Race users registry p username request f s log s') (hquiet : Quiet log)
    (hcurrent : ∀ f entry, s.cache.lookup? (Facet.key f username) = some entry →
      Store.Current users s.ledger f username entry.value)
    {f' : Facet} {entry : CacheEntry} (hentry : s'.cache.lookup? (f'.key username) = some entry) :
    Store.Current users s'.ledger f' username entry.value := by
  rw [ledger_of_quiet h.served hquiet]
  rcases lookup?_of_served h.served hentry with ⟨hthere, -⟩ | ⟨before, i, minutes, answer, after, hlog, -⟩
  · exact hcurrent f' entry hthere
  · have hput : (i, service ⟨.writeCache (f'.key username) entry.value minutes, answer⟩) ∈ log := by
      rw [hlog]
      exact List.mem_append_right _ List.mem_cons_self
    obtain ⟨user, account, hkey, hvalue, -, huser, hread, -⟩ := h.read_of_put hput
    obtain ⟨rfl, -⟩ := Facet.key_inj.mp hkey
    exact ⟨account, accountOf?_of_read huser (read_of_quiet h.served hquiet hread), hvalue⟩

/-- A lookup that has read before the debit straddles when its key is not deleted after the writing: for it is deleted
after the debit. -/
theorem straddles_of_read (h : Race users registry p username request f s log s') {account : Account} {rows : Nat}
    (hlog : log = before ++ (.topUp, service ⟨.writeBalance account, .ok rows⟩) :: after) {userId : Json.Word}
    {read : Except Fault (Option Account)} (hread : (.lookup, service ⟨.readAccount userId, read⟩) ∈ before)
    {first last : Log username} {value : String} {minutes : Nat} {answer : Except String Unit}
    (hput : log = first ++ (.lookup, service ⟨.writeCache (f.key username) value minutes, answer⟩) :: last)
    (hkept : ∀ x ∈ last, clears (f.key username) x.2 = false) : Straddles f username log := by
  rcases List.append_eq_append_iff.mp (hlog.symm.trans hput) with ⟨between, rfl, htail⟩ | ⟨between, rfl, htail⟩
  · rcases between with _ | ⟨debit, between⟩
    · cases (List.cons.inj htail).1
    · obtain ⟨rfl, rfl⟩ := List.cons.inj htail
      exact ⟨before, account, _, between, value, minutes, answer, last, hlog, ⟨userId, read, hread⟩, hkept⟩
  · rcases between with _ | ⟨put, between⟩
    · cases (List.cons.inj htail).1
    · obtain ⟨-, rfl⟩ := List.cons.inj htail
      obtain ⟨x, hx, hclears⟩ := h.clears_after hlog f
      have hnot : clears (f.key username) x.2 = false := hkept x (by simp [hx])
      rw [hclears] at hnot
      cases hnot

/-- With a debit what is in the cache has been put there after the deletion. It is current when it has been read after
the debit. -/
theorem current_or_straddles (h : Race users registry p username request f s log s') {account : Account} {rows : Nat}
    (hlog : log = before ++ (.topUp, service ⟨.writeBalance account, .ok rows⟩) :: after) {f' : Facet}
    {entry : CacheEntry} (hentry : s'.cache.lookup? (f'.key username) = some entry) :
    Store.Current users s'.ledger f' username entry.value ∨ f' = f ∧ Straddles f username log := by
  obtain ⟨-, hquiet⟩ := h.quiet_around hlog rfl
  rcases lookup?_of_served h.served hentry with ⟨-, hnever⟩ | ⟨first, i, minutes, answer, last, hlog', hkept⟩
  · obtain ⟨x, hx, hclears⟩ := h.clears_after hlog f'
    have hnot : clears (f'.key username) x.2 = false := hnever x (by rw [hlog]; simp [hx])
    rw [hclears] at hnot
    cases hnot
  have hput : (i, service ⟨.writeCache (f'.key username) entry.value minutes, answer⟩) ∈ log := by
    rw [hlog']
    exact List.mem_append_right _ List.mem_cons_self
  obtain ⟨user, a, hkey, hvalue, -, huser, hread, -⟩ := h.read_of_put hput
  obtain ⟨rfl, -⟩ := Facet.key_inj.mp hkey
  obtain rfl := h.lookup_of_put hput
  rw [hlog] at hread
  rcases List.mem_append.mp hread with hbefore | hafter
  · exact .inr ⟨rfl, h.straddles_of_read hlog hbefore hlog' hkept⟩
  · left
    have hlate : (.lookup, service ⟨.readAccount user.id, .ok (some a)⟩) ∈ after := by
      rcases List.mem_cons.mp hafter with heq | hlate
      · cases heq
      · exact hlate
    obtain ⟨t, u, -, -, hserved⟩ := h.split hlog
    rw [ledger_of_quiet hserved hquiet]
    exact ⟨a, accountOf?_of_read huser (read_of_quiet hserved hquiet hlate), hvalue⟩

theorem lookup?_of_straddles (h : Race users registry p username request f s log s') (hs : Straddles f username log) :
    ∃ account, s.ledger.accountOf? users username = some account ∧
      s'.cache.lookup? (f.key username) = some ⟨f.text account, some f.minutes⟩ := by
  obtain ⟨before, debited, written, between, value, minutes, answer, after, hlog, ⟨userId, read, hread⟩, hclears⟩ := hs
  obtain ⟨hquiet, -⟩ := h.quiet_around hlog rfl
  have hput : (.lookup, service ⟨.writeCache (f.key username) value minutes, answer⟩) ∈ log := by
    rw [hlog]
    simp
  obtain ⟨user, account, -, rfl, rfl, huser, -, hreads⟩ := h.read_of_put hput
  obtain ⟨rfl, rfl⟩ := hreads userId read (by rw [hlog]; exact List.mem_append_left _ hread)
  obtain ⟨t, u, hfirst, -, hrest⟩ := h.split hlog
  refine ⟨account, accountOf?_of_read huser (read_of_quiet hfirst hquiet hread), ?_⟩
  obtain ⟨v, w, -, ⟨hwrite, hfailed⟩, hlast⟩ := served_split hrest
  refine lookup?_kept_of_served hlast ?_ hclears ?_
  · rcases hwrite with rfl | ⟨hnot, -⟩
    · exact CacheStore.lookup?_put_self _ _ _
    · rcases answer with reason | done
      · cases hfailed
      · cases hnot
  · intro i value minutes answer hmem
    have hmem' : (i, service ⟨.writeCache (f.key username) value minutes, answer⟩) ∈ log := by
      rw [hlog]
      simp [hmem]
    obtain ⟨user', account', -, rfl, rfl, huser', hread', -⟩ := h.read_of_put hmem'
    obtain ⟨-, hsame⟩ := hreads user'.id _ hread'
    cases hsame
    rfl

/-- **The only order that leaves a stale entry.** When the user's entries are current before the race, then all that are
there after it are current, except the one that the lookup has put there if it straddles debit and deletion. -/
theorem race_ends (hcurrent : ∀ f entry, s.cache.lookup? (Facet.key f username) = some entry →
      Store.Current users s.ledger f username entry.value)
    (h : Race users registry p username request f s log s') : Ends users username f s log s' := by
  refine ⟨fun f' entry hentry => ?_, h.lookup?_of_straddles⟩
  by_cases hquiet : Quiet log
  · exact .inl (h.current_of_quiet hquiet hcurrent hentry)
  · obtain ⟨before, account, rows, after, hlog⟩ := h.exists_debit hquiet
    exact h.current_or_straddles hlog hentry

end

/-! ## One program after the other -/

section
variable {users : String → Option User} {username : String} {s s' : Store}

theorem served_service {history : Service.History} (h : Served (Store.Serves users) s history s')
    (hfailed : ∀ entry ∈ history, Service.failed entry = false) : Served (Serves users) s (history.map service) s' := by
  induction h with
  | nil s => exact .nil s
  | cons hserves hrest ih =>
    obtain ⟨hfirst, hrest⟩ := List.forall_mem_cons.mp hfailed
    exact .cons ⟨hserves, hfirst⟩ (ih hrest)

theorem not_failed_of_serves {transport : Nat → Except String Delivery} (htransport : ∀ n, (transport n).isOk = true)
    {x x' : SideEffect.Surroundings} {entry : SideEffect.Entry}
    (h : SideEffect.Serves (fun _ => false) transport x entry x') : SideEffect.failed entry = false := by
  obtain ⟨question, answer⟩ := entry
  cases question with
  | deleteKey | deletePattern =>
    obtain ⟨rfl, -⟩ := h
    rfl
  | send =>
    obtain ⟨hanswer, -⟩ := h
    have hok := htransport x.sends
    rw [← hanswer] at hok
    rcases answer with reason | delivery
    · cases hok
    · rfl
  | _ => rfl

theorem served_effect {transport : Nat → Except String Delivery} (htransport : ∀ n, (transport n).isOk = true)
    {x x' : SideEffect.Surroundings} {history : SideEffect.History}
    (h : Served (SideEffect.Serves (fun _ => false) transport) x history x') (ledger : Ledger) :
    Served (Serves users) ⟨ledger, x.cache⟩ (history.map effect) ⟨ledger, x'.cache⟩ := by
  induction h with
  | nil x => exact .nil _
  | @cons x y z entry history hserves hrest ih =>
    have hfailed := not_failed_of_serves htransport hserves
    exact served_cons_iff.mpr ⟨⟨ledger, y.cache⟩, ⟨hfailed, rfl, transport, x.sends, y.sends, hserves⟩, ih⟩

def ofTasks (log : List (Fin (SideEffect.tasks username).length × SideEffect.Entry)) : Log username :=
  log.map fun x => (.task x.1, effect x.2)

variable {log : List (Fin (SideEffect.tasks username).length × SideEffect.Entry)}

theorem entriesOf_ofTasks (i : Fin (SideEffect.tasks username).length) :
    entriesOf (.task i) (ofTasks log) = (entriesOf i log).map effect := by
  induction log with
  | nil => rfl
  | cons x log ih =>
    obtain ⟨j, entry⟩ := x
    by_cases hj : j = i
    · subst hj
      rw [entriesOf_cons_self, List.map_cons, ← ih]
      exact entriesOf_cons_self
    · have hparty : Party.task j ≠ Party.task i := fun h => hj (Party.task.inj h)
      rw [entriesOf_cons_of_ne hj, ← ih]
      exact entriesOf_cons_of_ne hparty

theorem entriesOf_ofTasks_of_ne {i : Party username} (hi : ∀ j, i ≠ .task j) : entriesOf i (ofTasks log) = [] := by
  induction log with
  | nil => rfl
  | cons x log ih => exact (entriesOf_cons_of_ne (hi x.1).symm).trans ih

end

/-! ## The order in which it happens -/

namespace Sample
open TopUp.Sample

def reading : Service.History :=
  [⟨.readCache (Facet.account.key user.username), .ok none⟩, ⟨.findUser user.username, .ok (some user)⟩,
    ⟨.readAccount user.id, .ok (some (account hundred))⟩]

def putting : Service.Entry :=
  ⟨.writeCache (Facet.account.key user.username) (Facet.account.text (account hundred)) Service.accountMinutes, .ok ()⟩

theorem yields_look :
    (Facet.account.look user.username).run.Yields (reading ++ [putting]) (.ok (account hundred).view) := by
  have hmiss : Service.held? AccountView (.ok none) = none := rfl
  have hread : Service.Read Account.view user.username _ _ := .read user (account hundred)
  exact Service.yields_lookup_iff.mpr (.filled hmiss hread (.ok ()))

/-- The cache in the end: the account as it was before the debit. -/
def staleCache : CacheStore :=
  [(Facet.account.key user.username, ⟨Facet.account.text (account hundred), some Service.accountMinutes⟩)]

/-- The lookup reads, and the top-up takes 60. -/
def beginning : Log user.username :=
  (reading.map service).map (.lookup, ·) ++ ((wholeHistory hundred sixty forty).map service).map (.topUp, ·)

/-- When the tasks have run the lookup goes on. -/
def crossing (tasks : List (Fin (SideEffect.tasks user.username).length × SideEffect.Entry)) : Log user.username :=
  beginning ++ (ofTasks tasks ++ [service putting].map (.lookup, ·))

def transport (_ : Nat) : Except String Delivery := .ok ⟨"transactions", none, "1-0"⟩

def record : Transaction := (placing hundred).record (debit forty) (request sixty) (account forty) .epoch default

theorem dispatch_mem_iff {t : Transaction} :
    (⟨.dispatch user.username t, ()⟩ : Service.Entry) ∈ wholeHistory hundred sixty forty ↔ t = record := by
  simp [wholeHistory, settlement, TopUp.Placing.history, TopUp.Placing.debitHistory, ending, TopUp.counted, record]

section
variable {tasks : List (Fin (SideEffect.tasks user.username).length × SideEffect.Entry)}

theorem entriesOf_crossing (tasks : List (Fin (SideEffect.tasks user.username).length × SideEffect.Entry)) :
    entriesOf .lookup (crossing tasks) = (reading ++ [putting]).map service ∧
      entriesOf .topUp (crossing tasks) = (wholeHistory hundred sixty forty).map service ∧
        ∀ i, entriesOf (.task i) (crossing tasks) = (entriesOf i tasks).map effect := by
  have hlookup : Party.lookup ≠ (.topUp : Party user.username) := nofun
  have htask : ∀ i, Party.lookup ≠ (.task i : Party user.username) ∧ Party.topUp ≠ (.task i : Party user.username) :=
    fun i => ⟨nofun, nofun⟩
  unfold crossing beginning
  simp only [entriesOf_append]
  refine ⟨?_, ?_, fun i => ?_⟩
  · rw [entriesOf_map_self, entriesOf_map_of_ne _ hlookup.symm, entriesOf_ofTasks_of_ne fun j => (htask j).1,
      entriesOf_map_self, List.map_append]
    rfl
  · rw [entriesOf_map_of_ne _ hlookup, entriesOf_map_self, entriesOf_ofTasks_of_ne fun j => (htask j).2,
      entriesOf_map_of_ne _ hlookup]
    exact List.append_nil _
  · rw [entriesOf_map_of_ne _ (htask i).1, entriesOf_map_of_ne _ (htask i).2, entriesOf_ofTasks,
      entriesOf_map_of_ne _ (htask i).1]
    exact List.append_nil _

theorem dispatch_mem_of_crossing {before after : Log user.username} {i : Fin (SideEffect.tasks user.username).length}
    {entry : Both.Entry} (h : crossing tasks = before ++ (.task i, entry) :: after) :
    (.topUp, service ⟨.dispatch user.username record, ()⟩) ∈ before := by
  have hdispatch : (.topUp, service ⟨.dispatch user.username record, ()⟩) ∈ beginning :=
    List.mem_append_right _ (List.mem_map_of_mem (mem_map_service.mpr (dispatch_mem_iff.mpr rfl)))
  have htask : (.task i, entry) ∉ beginning := by simp [beginning]
  rcases List.append_eq_append_iff.mp h with ⟨between, rfl, -⟩ | ⟨between, hbetween, htail⟩
  · exact List.mem_append_left _ hdispatch
  · rcases between with _ | ⟨x, between⟩
    · rwa [hbetween, List.append_nil] at hdispatch
    · obtain ⟨rfl, -⟩ := List.cons.inj htail
      exact absurd (by rw [hbetween]; exact List.mem_append_right _ List.mem_cons_self) htask

theorem served_crossing {x : SideEffect.Surroundings}
    (h : Served (SideEffect.Serves (fun _ => false) transport) ⟨[], 0⟩ (tasks.map (·.2)) x)
    (hcache : x.cache = []) :
    Served (Serves users) (store hundred) ((crossing tasks).map (·.2)) ⟨[account forty], staleCache⟩ := by
  have hread : Served (Serves users) (store hundred) (reading.map service) (store hundred) := by
    refine served_service (.cons ⟨.inl rfl, rfl⟩ ?_) (by decide)
    exact served_findUser_iff.mpr ⟨.inl rfl, served_readAccount_iff.mpr ⟨.inl rfl, .nil _⟩⟩
  have htopUp : Served (Serves users) (store hundred)
      ((wholeHistory hundred sixty forty).map service) ⟨[account forty], []⟩ :=
    served_service (served_store []) (by decide)
  have htasks : Served (Serves users) ⟨[account forty], []⟩ ((tasks.map (·.2)).map effect) ⟨[account forty], x.cache⟩ :=
    served_effect (fun _ => rfl) h [account forty]
  rw [hcache] at htasks
  have hput : Served (Serves users) ⟨[account forty], []⟩ [service putting] ⟨[account forty], staleCache⟩ :=
    .cons ⟨.inl rfl, rfl⟩ (.nil _)
  have hlast := served_append_iff.mpr ⟨_, htasks, hput⟩
  have hall := served_append_iff.mpr ⟨_, hread, served_append_iff.mpr ⟨_, htopUp, hlast⟩⟩
  simpa [crossing, beginning, ofTasks, Function.comp_def] using hall

theorem exists_race (p : Publisher) :
    ∃ log, Race users registry p user.username (request sixty) .account (store hundred) log
      ⟨[account forty], staleCache⟩ := by
  have hstart := Underway.start (SideEffect.Serves (fun _ => false) transport)
    (SideEffect.runs p user.username record) ⟨[], 0⟩
  obtain ⟨tasks, r, x, htasks⟩ := hstart.exists_interleaved (SideEffect.exists_serves (fun _ => false) transport)
  rw [List.nil_append] at htasks
  have hcache : x.cache = [] := SideEffect.cache_of_interleaved htasks
  obtain ⟨hlookup, htopUp, hall⟩ := entriesOf_crossing tasks
  refine ⟨crossing tasks, ⟨_, _, yields_look, hlookup⟩, ?_, ?_, ?_, served_crossing htasks.served hcache⟩
  · exact ⟨_, _, yields_topUp rfl sixty_le_hundred hundred_sub?_sixty, htopUp⟩
  · exact fun before i entry after h => ⟨record, dispatch_mem_of_crossing h⟩
  · intro t ht i
    have ht' : service ⟨.dispatch user.username t, ()⟩ ∈ (wholeHistory hundred sixty forty).map service :=
      htopUp ▸ mem_entriesOf.mpr ht
    obtain rfl := dispatch_mem_iff.mp (mem_map_service.mp ht')
    exact ⟨_, _, htasks.yields i, hall i⟩

end

end Sample

open TopUp.Sample

/-- After the race the cache says 100 where 40 are left. -/
theorem stale_after_crossing :
    ∃ log, Race users registry (.standard "transactions") user.username (request sixty) .account (store hundred) log
        ⟨[account forty], Sample.staleCache⟩ ∧
      ∃ entry, Sample.staleCache.lookup? (Facet.account.key user.username) = some entry ∧
        ¬ Store.Current users [account forty] .account user.username entry.value := by
  obtain ⟨log, hrace⟩ := Sample.exists_race (.standard "transactions")
  refine ⟨log, hrace, _, rfl, ?_⟩
  rintro ⟨a, ha, htext⟩
  cases ha
  have hdecoded := Facet.decode_text .account (account hundred)
  change Facet.account.text (account hundred) = Facet.account.text (account forty) at htext
  rw [htext, Facet.decode_text] at hdecoded
  have hbalance : forty = hundred := congrArg AccountView.balance (Except.ok.inj hdecoded)
  exact absurd hbalance (by decide)

theorem race_ends_crossing :
    ∃ log, Race users registry (.standard "transactions") user.username (request sixty) .account (store hundred) log
        ⟨[account forty], Sample.staleCache⟩ ∧
      Ends users user.username .account (store hundred) log ⟨[account forty], Sample.staleCache⟩ := by
  obtain ⟨log, hrace⟩ := Sample.exists_race (.standard "transactions")
  exact ⟨log, hrace, race_ends (fun f entry hentry => by cases hentry) hrace⟩

end Race

end WalletTopUp
