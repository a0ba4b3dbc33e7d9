import WalletTopUp.Proofs.Service.OnBehalf

/-!
# Users are isolated

A `World` is users with their store. How the collaborators of an operation behave is its `Conduct`: what providers,
clock and random source say and what fails, each in the knowledge of all that the operation has asked and been
answered. Two worlds that agree on what belongs to a user are the same to the operations of this user, and what
belongs to others is left as it is (`users_isolated`). For every question concerns the user (`OnBehalf`), so both
worlds answer it alike and go on to worlds that agree.
-/

namespace WalletTopUp

/-! ## Worlds -/

/-- The users with the store. -/
structure World where
  users : String → Option User
  store : Store

namespace World

def written (w : World) : Service.Question → World
  | .writeBalance a => { w with store := { w.store with ledger := w.store.ledger.write a } }
  | .writeCache key value minutes =>
    { w with store := { w.store with cache := w.store.cache.put key ⟨value, some minutes⟩ } }
  | _ => w

def account? (w : World) (username : String) : Option Account := w.store.ledger.accountOf? w.users username

def cached? (w : World) (f : Facet) (username : String) : Option CacheEntry := w.store.cache.lookup? (f.key username)

/-- Users with different names are different, and so are the accounts of the ledger. -/
structure Separate (w : World) : Prop where
  users : Distinct w.users
  ids : (w.store.ledger.map (·.id)).Nodup

/-- The worlds agree on what belongs to a user. -/
structure Agree (username : String) (w w' : World) : Prop where
  user : w'.users username = w.users username
  account : w'.account? username = w.account? username
  entries : ∀ f, w'.cached? f username = w.cached? f username

/-- What belongs to others is the same in the world `v` as in the world `w`. -/
def Untouched (username : String) (w v : World) : Prop :=
  ∀ other, other ≠ username → Agree other w v

theorem Untouched.refl (username : String) (w : World) : Untouched username w w :=
  fun _ _ => ⟨rfl, rfl, fun _ => rfl⟩

theorem Untouched.trans {username : String} {w v u : World} (h : Untouched username w v)
    (h' : Untouched username v u) : Untouched username w u := by
  intro other hne
  obtain ⟨huser, haccount, hentries⟩ := h other hne
  obtain ⟨huser', haccount', hentries'⟩ := h' other hne
  exact ⟨huser'.trans huser, haccount'.trans haccount, fun f => (hentries' f).trans (hentries f)⟩

end World

/-- How the collaborators of an operation behave. They know all that it has asked and been answered before. -/
structure Conduct where
  /-- What they answer. Users, accounts and entries are those of the world, unless the answer is a failure. -/
  answer : Service.Responder
  /-- A writing that fails may take place nevertheless. -/
  lands : Service.History → Service.Question → Bool
  /-- The deletions after a top-up that fail. -/
  fails : SideEffect.Drop → Bool

namespace Conduct
variable (c : Conduct) (w : World) (past : Service.History)

/-- What the world has in place of what is answered, unless that is a failure. -/
def instead {ε α : Type} (answer : Except ε α) (there : α) : Except ε α := answer.map fun _ => there

def reply : (q : Service.Question) → Service.Answer q
  | .findUser username => instead (c.answer past (.findUser username)) (w.users username)
  | .readAccount userId => instead (c.answer past (.readAccount userId)) (w.store.ledger.account? userId)
  | .writeBalance a => instead (c.answer past (.writeBalance a)) (w.store.ledger.writes a)
  | .readCache key => instead (c.answer past (.readCache key)) ((w.store.cache.lookup? key).map (·.value))
  | q => c.answer past q

def happens : Service.Question → Bool
  | .writeBalance a => (c.answer past (.writeBalance a)).isOk || c.lands past (.writeBalance a)
  | .writeCache key value minutes =>
    (c.answer past (.writeCache key value minutes)).isOk || c.lands past (.writeCache key value minutes)
  | _ => false

def after (q : Service.Question) : World := if c.happens past q then w.written q else w

/-- The world answers the question of an entry and goes on. -/
def Serves (s : World × Service.History) (entry : Service.Entry) (s' : World × Service.History) : Prop :=
  entry.2 = c.reply s.1 s.2 entry.1 ∧ s' = (c.after s.1 s.2 entry.1, s.2 ++ [entry])

end Conduct

/-- The tasks for each of the transactions run to their ends, in any order. -/
inductive Ensues (fails : SideEffect.Drop → Bool) : List (String × Transaction) → CacheStore → CacheStore → Prop
  | none (cache : CacheStore) : Ensues fails [] cache cache
  | tasks {p : Publisher} {username : String} {t : Transaction} {transport : Nat → Except String Delivery}
      {cache cache' : CacheStore} {log : List (Fin (SideEffect.tasks username).length × SideEffect.Entry)}
      {r : Fin (SideEffect.tasks username).length → SideEffect.Outcome} {s : SideEffect.Surroundings}
      {rest : List (String × Transaction)}
      (h : Interleaved (SideEffect.Serves fails transport) (SideEffect.runs p username t) ⟨cache, 0⟩ log r s)
      (hrest : Ensues fails rest s.cache cache') : Ensues fails ((username, t) :: rest) cache cache'

/-- A user's operation with the tasks that follow it, from its beginning to its end. -/
inductive CarriedOut (c : Conduct) (registry : Registry) (username : String) (op : Operation) (w : World) :
    op.Result → World → Prop
  | intro {history : Service.History} {r : op.Result} {v : World} {cache : CacheStore}
      (yields : (op.program registry username).Yields history r)
      (served : Served (Conduct.Serves c) (w, []) history (v, history))
      (ensues : Ensues c.fails (dispatched history) v.store.cache cache) :
      CarriedOut c registry username op w r { v with store := { v.store with cache } }

open World (Agree Untouched Separate)

/-! ## One question -/

section
variable {c : Conduct} {registry : Registry} {username : String} {w w' v : World} {past history : Service.History}
  {q : Service.Question}

/-- What was found and read before is still there, except for balances. -/
structure Known (w : World) (past : Service.History) : Prop where
  found : ∀ name user, (⟨.findUser name, .ok (some user)⟩ : Service.Entry) ∈ past → w.users name = some user
  read : ∀ userId account, (⟨.readAccount userId, .ok (some account)⟩ : Service.Entry) ∈ past →
    ∃ b, w.store.ledger.account? userId = some b ∧ b.id = account.id

theorem Known.nil (w : World) : Known w [] := ⟨by simp, by simp⟩

theorem Known.owned (h : Known w past) {user : User} {account : Account} (howned : Owned username past user account) :
    w.users username = some user ∧ ∃ b, w.store.ledger.account? user.id = some b ∧ b.id = account.id :=
  ⟨h.found _ _ howned.1, h.read _ _ howned.2⟩

theorem account?_of_found {user : User} (h : w.users username = some user) :
    w.account? username = w.store.ledger.account? user.id := by
  simp [World.account?, Ledger.accountOf?, h]

theorem Ledger.writes_of_account? {ledger : Ledger} {a b : Account} {userId : Json.Word}
    (h : ledger.account? userId = some b) (hid : b.id = a.id) : ledger.writes a = 1 := by
  have hhas : ledger.hasId a.id = true :=
    List.any_eq_true.mpr ⟨b, (Ledger.mem_of_account? h).1, decide_eq_true hid⟩
  rw [Ledger.writes, hhas]
  rfl

theorem reply_eq (hagree : Agree username w w') (hknown : Known w past) (hknown' : Known w' past)
    (hq : Concerns username past q) : c.reply w' past q = c.reply w past q := by
  cases q with
  | findUser name =>
    obtain rfl : name = username := hq
    exact congrArg (Conduct.instead _) hagree.user
  | readAccount userId =>
    obtain ⟨user, hfound, rfl⟩ := hq
    have haccount := hagree.account
    rw [account?_of_found (hknown.found _ _ hfound), account?_of_found (hknown'.found _ _ hfound)] at haccount
    exact congrArg (Conduct.instead _) haccount
  | writeBalance a =>
    obtain ⟨user, account, howned, hid⟩ := hq
    obtain ⟨-, b, hb, hbid⟩ := hknown.owned howned
    obtain ⟨-, b', hb', hbid'⟩ := hknown'.owned howned
    have hwrites : w'.store.ledger.writes a = w.store.ledger.writes a := by
      rw [Ledger.writes_of_account? hb (hbid.trans hid.symm), Ledger.writes_of_account? hb' (hbid'.trans hid.symm)]
    exact congrArg (Conduct.instead _) hwrites
  | readCache key =>
    obtain ⟨f, rfl⟩ := hq
    exact congrArg (fun entry => Conduct.instead _ (Option.map CacheEntry.value entry)) (hagree.entries f)
  | _ => rfl

/-! ## What a writing does -/

theorem account?_written (hids : (w.store.ledger.map (·.id)).Nodup) (a : Account) (username : String) :
    (w.written (.writeBalance a)).account? username = (w.account? username).map a.after := by
  unfold World.account? Ledger.accountOf?
  change (w.users username).bind (fun user => (w.store.ledger.write a).account? user.id) = _
  rcases w.users username with _ | user
  · rfl
  · exact Ledger.account?_write hids a user.id

theorem cached?_written_self (f : Facet) (username value : String) (minutes : Nat) :
    (w.written (.writeCache (f.key username) value minutes)).cached? f username = some ⟨value, some minutes⟩ :=
  CacheStore.lookup?_put_self _ _ _

theorem cached?_written_of_ne {f f' : Facet} {other value : String} {minutes : Nat}
    (h : ¬ (f' = f ∧ other = username)) :
    (w.written (.writeCache (f.key username) value minutes)).cached? f' other = w.cached? f' other :=
  CacheStore.lookup?_put_of_ne _ _ (mt Facet.key_inj.mp h)

theorem agree_written (hids : (w.store.ledger.map (·.id)).Nodup) (hids' : (w'.store.ledger.map (·.id)).Nodup)
    (hagree : Agree username w w') (hq : Concerns username past q) : Agree username (w.written q) (w'.written q) := by
  obtain ⟨huser, haccount, hentries⟩ := hagree
  cases q with
  | writeBalance a =>
    refine ⟨huser, ?_, hentries⟩
    rw [account?_written hids, account?_written hids', haccount]
  | writeCache key value minutes =>
    obtain ⟨f, rfl⟩ := hq
    refine ⟨huser, haccount, fun f' => ?_⟩
    by_cases hf : f' = f
    · subst hf
      rw [cached?_written_self, cached?_written_self]
    · rw [cached?_written_of_ne fun h => hf h.1, cached?_written_of_ne fun h => hf h.1, hentries]
  | _ => exact ⟨huser, haccount, hentries⟩

/-- A writing that concerns the user does not concern others: their accounts have other ids and their entries other
keys. -/
theorem untouched_written (hw : w.Separate) (hknown : Known w past) (hq : Concerns username past q) :
    Untouched username w (w.written q) := by
  intro other hne
  cases q with
  | writeBalance a =>
    refine ⟨rfl, ?_, fun f => rfl⟩
    obtain ⟨user, account, howned, hid⟩ := hq
    obtain ⟨huser, b, hb, hbid⟩ := hknown.owned howned
    rw [account?_written hw.ids]
    rcases hother : w.account? other with _ | b'
    · rfl
    obtain ⟨user', huser', hb'⟩ := Option.bind_eq_some_iff.mp hother
    refine congrArg some (Account.after_of_ne fun hsame => hne ?_)
    obtain ⟨hmem, huserId⟩ := Ledger.mem_of_account? hb
    obtain ⟨hmem', huserId'⟩ := Ledger.mem_of_account? hb'
    obtain rfl : b' = b := List.inj_on_of_nodup_map hw.ids hmem' hmem (hsame.trans (hid.trans hbid.symm))
    exact hw.users other username user' user huser' huser (huserId'.symm.trans huserId)
  | writeCache key value minutes =>
    obtain ⟨f, rfl⟩ := hq
    exact ⟨rfl, rfl, fun f' => cached?_written_of_ne fun h => hne h.2⟩
  | _ => exact ⟨rfl, rfl, fun f => rfl⟩

theorem separate_written (hw : w.Separate) : (w.written q).Separate := by
  cases q with
  | writeBalance a =>
    refine ⟨hw.users, ?_⟩
    change ((w.store.ledger.write a).map (·.id)).Nodup
    rw [Ledger.map_id_write]
    exact hw.ids
  | _ => exact ⟨hw.users, hw.ids⟩

theorem known_written (hw : w.Separate) (hknown : Known w past) : Known (w.written q) past := by
  cases q with
  | writeBalance a =>
    refine ⟨hknown.found, fun userId account hmem => ?_⟩
    obtain ⟨b, hb, hid⟩ := hknown.read userId account hmem
    have hread : (w.written (.writeBalance a)).store.ledger.account? userId = some (a.after b) := by
      change (w.store.ledger.write a).account? userId = some (a.after b)
      rw [Ledger.account?_write hw.ids, hb, Option.map_some]
    exact ⟨a.after b, hread, (Account.after_id a b).trans hid⟩
  | _ => exact ⟨hknown.found, hknown.read⟩

/-! ## One step -/

theorem known_reply (hknown : Known w past) : Known w (past ++ [⟨q, c.reply w past q⟩]) := by
  have hinstead : ∀ {ε α : Type} {answer : Except ε α} {there a : α}, Conduct.instead answer there = .ok a →
      there = a := by
    intro ε α answer there a h
    cases answer with
    | error e => cases h
    | ok _ => exact Except.ok.inj h
  constructor
  · intro name user hmem
    rcases List.mem_append.mp hmem with hmem | hmem
    · exact hknown.found name user hmem
    · obtain ⟨rfl, hanswer⟩ := Sigma.mk.inj (List.mem_singleton.mp hmem)
      exact hinstead (eq_of_heq hanswer).symm
  · intro userId account hmem
    rcases List.mem_append.mp hmem with hmem | hmem
    · exact hknown.read userId account hmem
    · obtain ⟨rfl, hanswer⟩ := Sigma.mk.inj (List.mem_singleton.mp hmem)
      exact ⟨account, hinstead (eq_of_heq hanswer).symm, rfl⟩

theorem known_after (hw : w.Separate) (hknown : Known w past) :
    Known (c.after w past q) (past ++ [⟨q, c.reply w past q⟩]) := by
  have hreply := known_reply (c := c) (q := q) hknown
  unfold Conduct.after
  split_ifs
  · exact known_written hw hreply
  · exact hreply

theorem separate_after (hw : w.Separate) : (c.after w past q).Separate := by
  unfold Conduct.after
  split_ifs
  · exact separate_written hw
  · exact hw

theorem agree_after (hw : w.Separate) (hw' : w'.Separate) (hagree : Agree username w w')
    (hq : Concerns username past q) : Agree username (c.after w past q) (c.after w' past q) := by
  unfold Conduct.after
  split_ifs
  · exact agree_written hw.ids hw'.ids hagree hq
  · exact hagree

theorem untouched_after (hw : w.Separate) (hknown : Known w past) (hq : Concerns username past q) :
    Untouched username w (c.after w past q) := by
  unfold Conduct.after
  split_ifs
  · exact untouched_written hw hknown hq
  · exact .refl username w

/-! ## A run -/

theorem served_cons {answer : Service.Answer q} {s : World × Service.History} :
    Served (Conduct.Serves c) (w, past) (⟨q, answer⟩ :: history) s ↔
      answer = c.reply w past q ∧ Served (Conduct.Serves c) (c.after w past q, past ++ [⟨q, answer⟩]) history s := by
  simp [Conduct.Serves, and_assoc]

theorem past_of_served {s : World × Service.History} (h : Served (Conduct.Serves c) (w, past) history s) :
    s.2 = past ++ history := by
  induction history generalizing w past with
  | nil => rw [served_nil_iff.mp h, List.append_nil]
  | cons entry history ih =>
    obtain ⟨q, answer⟩ := entry
    rw [ih (served_cons.mp h).2, List.append_assoc, List.singleton_append]

theorem untouched_of_served {s : World × Service.History} (hw : w.Separate) (hknown : Known w past)
    (hon : OnBehalf username past history) (h : Served (Conduct.Serves c) (w, past) history s) :
    Untouched username w s.1 := by
  induction history generalizing w past with
  | nil =>
    obtain rfl := served_nil_iff.mp h
    exact .refl username w
  | cons entry history ih =>
    obtain ⟨q, answer⟩ := entry
    obtain ⟨hq, hon⟩ := hon
    obtain ⟨hanswer, hrest⟩ := served_cons.mp h
    subst hanswer
    exact (untouched_after hw hknown hq).trans (ih (separate_after hw) (known_after hw hknown) hon hrest)

/-- A history of one world is a history of every world that agrees, and then they agree still. -/
theorem exists_served_of_agree {s : World × Service.History} (hw : w.Separate) (hw' : w'.Separate)
    (hknown : Known w past) (hknown' : Known w' past) (hagree : Agree username w w')
    (hon : OnBehalf username past history) (h : Served (Conduct.Serves c) (w, past) history s) :
    ∃ v', Served (Conduct.Serves c) (w', past) history (v', s.2) ∧ Agree username s.1 v' := by
  induction history generalizing w w' past with
  | nil =>
    obtain rfl := served_nil_iff.mp h
    exact ⟨w', .nil _, hagree⟩
  | cons entry history ih =>
    obtain ⟨q, answer⟩ := entry
    obtain ⟨hq, hon⟩ := hon
    obtain ⟨hanswer, hrest⟩ := served_cons.mp h
    have hanswer' : answer = c.reply w' past q := hanswer.trans (reply_eq hagree hknown hknown' hq).symm
    have hnext : Known (c.after w past q) (past ++ [⟨q, answer⟩]) := hanswer ▸ known_after hw hknown
    have hnext' : Known (c.after w' past q) (past ++ [⟨q, answer⟩]) := hanswer' ▸ known_after hw' hknown'
    obtain ⟨v', hserved, hagrees⟩ := ih (separate_after hw) (separate_after hw') hnext hnext'
      (agree_after hw hw' hagree hq) hon hrest
    exact ⟨v', served_cons.mpr ⟨hanswer', hserved⟩, hagrees⟩

theorem serves_determined (c : Conduct) (s : World × Service.History) (q : Service.Question)
    (answer answer' : Service.Answer q) (t t' : World × Service.History) (h : c.Serves s ⟨q, answer⟩ t)
    (h' : c.Serves s ⟨q, answer'⟩ t') : answer' = answer ∧ t' = t := by
  obtain ⟨hanswer, rfl⟩ := h
  obtain ⟨hanswer', rfl⟩ := h'
  obtain rfl : answer' = answer := hanswer'.trans hanswer.symm
  exact ⟨rfl, rfl⟩

/-! ## The tasks -/

section
variable {fails : SideEffect.Drop → Bool} {transactions : List (String × Transaction)}
  {cache cache' cache₁ cache₁' : CacheStore} {key : String}

theorem lookup?_of_ensues (h : Ensues fails transactions cache cache') (howned : ∀ x ∈ transactions, x.1 = username)
    (hkey : ¬ SideEffect.Stale username key) : cache'.lookup? key = cache.lookup? key := by
  induction h with
  | none => rfl
  | tasks htasks hrest ih =>
    obtain ⟨rfl, howned⟩ := List.forall_mem_cons.mp howned
    rw [ih howned, SideEffect.cache_of_interleaved htasks, SideEffect.lookup?_drop_of_not_stale hkey]

theorem lookup?_eq_of_ensues (h : Ensues fails transactions cache cache')
    (h₁ : Ensues fails transactions cache₁ cache₁')
    (hkey : cache₁.lookup? key = cache.lookup? key) : cache₁'.lookup? key = cache'.lookup? key := by
  induction h generalizing cache₁ with
  | none =>
    cases h₁
    exact hkey
  | tasks htasks hrest ih =>
    cases h₁ with
    | tasks htasks₁ hrest₁ =>
      refine ih hrest₁ ?_
      rw [SideEffect.cache_of_interleaved htasks, SideEffect.cache_of_interleaved htasks₁, CacheStore.lookup?_drop,
        CacheStore.lookup?_drop, hkey]

theorem exists_ensues (fails : SideEffect.Drop → Bool) (transactions : List (String × Transaction))
    (cache : CacheStore) : ∃ cache', Ensues fails transactions cache cache' := by
  induction transactions generalizing cache with
  | nil => exact ⟨cache, .none cache⟩
  | cons x rest ih =>
    obtain ⟨username, t⟩ := x
    have hanswers := SideEffect.exists_serves fails fun _ => .error "down"
    obtain ⟨log, r, s, htasks⟩ := (Underway.start (SideEffect.Serves fails fun _ => .error "down")
      (SideEffect.runs (.standard "transactions") username t) ⟨cache, 0⟩).exists_interleaved hanswers
    obtain ⟨cache', hrest⟩ := ih s.cache
    exact ⟨cache', .tasks htasks hrest⟩

end

theorem owned_of_dispatched (hon : OnBehalf username past history) : ∀ x ∈ dispatched history, x.1 = username := by
  induction history generalizing past with
  | nil => simp [dispatched]
  | cons entry history ih =>
    obtain ⟨q, answer⟩ := entry
    obtain ⟨hq, hon⟩ := hon
    cases q with
    | dispatch name t => exact List.forall_mem_cons.mpr ⟨hq.1, ih hon⟩
    | _ => exact ih hon

/-! ## An operation with its tasks -/

theorem exists_carriedOut (c : Conduct) (registry : Registry) (username : String) (op : Operation) (w : World) :
    ∃ r v, CarriedOut c registry username op w r v := by
  have hanswers : ∀ s q, ∃ answer t, c.Serves s ⟨q, answer⟩ t := fun s q => ⟨c.reply s.1 s.2 q, _, rfl, rfl⟩
  obtain ⟨history, r, ⟨v, past⟩, hyields, hserved⟩ := (op.program registry username).exists_served hanswers (w, [])
  obtain rfl : past = history := past_of_served hserved
  obtain ⟨cache, hensues⟩ := exists_ensues c.fails (dispatched past) v.store.cache
  exact ⟨r, _, .intro hyields hserved hensues⟩

theorem CarriedOut.untouched {op : Operation} {r : op.Result} (hw : w.Separate)
    (h : CarriedOut c registry username op w r v) : Untouched username w v := by
  rcases h with ⟨hyields, hserved, hensues⟩
  have hon : OnBehalf username [] _ := Operation.onBehalf_of_yields hyields
  refine (untouched_of_served hw (.nil w) hon hserved).trans fun other hne => ⟨rfl, rfl, fun f => ?_⟩
  exact lookup?_of_ensues hensues (owned_of_dispatched hon) (Facet.not_stale_key hne)

/-- In worlds that agree on what belongs to the user, the operation comes to the same. -/
theorem CarriedOut.agree {op : Operation} {r r' : op.Result} {v' : World} (hw : w.Separate) (hw' : w'.Separate)
    (hagree : Agree username w w') (h : CarriedOut c registry username op w r v)
    (h' : CarriedOut c registry username op w' r' v') : r' = r ∧ Agree username v v' := by
  rcases h with ⟨hyields, hserved, hensues⟩
  rcases h' with ⟨hyields', hserved', hensues'⟩
  have hon : OnBehalf username [] _ := Operation.onBehalf_of_yields hyields
  obtain ⟨u, hu, huser, haccount, hentries⟩ :=
    exists_served_of_agree hw hw' (.nil w) (.nil w') hagree hon hserved
  obtain ⟨rfl, rfl, hsame⟩ := Program.Yields.unique_of_served (serves_determined c) hyields hu hyields' hserved'
  obtain ⟨rfl, -⟩ := Prod.mk.inj hsame
  exact ⟨rfl, huser, haccount, fun f => lookup?_eq_of_ensues hensues hensues' (hentries f)⟩

/-- **Users are isolated.** In two worlds that agree on what belongs to a user, an operation of this user has one result
and leaves the worlds agreeing, whatever others have; and what others have is left as it is. -/
theorem users_isolated (c : Conduct) (registry : Registry) (username : String) (op : Operation) {w w' : World}
    (hw : w.Separate) (hw' : w'.Separate) (hagree : Agree username w w') :
    ∃ r, (∃ v, CarriedOut c registry username op w r v) ∧ (∃ v', CarriedOut c registry username op w' r v') ∧
      ∀ r₁ v r₂ v', CarriedOut c registry username op w r₁ v → CarriedOut c registry username op w' r₂ v' →
        r₁ = r ∧ r₂ = r ∧ Agree username v v' ∧ Untouched username w v ∧ Untouched username w' v' := by
  obtain ⟨r, v, h⟩ := exists_carriedOut c registry username op w
  obtain ⟨r', v', h'⟩ := exists_carriedOut c registry username op w'
  obtain ⟨rfl, -⟩ := h.agree hw hw' hagree h'
  refine ⟨r', ⟨v, h⟩, ⟨v', h'⟩, fun r₁ v₁ r₂ v₂ h₁ h₂ => ?_⟩
  obtain ⟨rfl, -⟩ := h₁.agree hw hw' hagree h'
  obtain ⟨rfl, hagrees⟩ := h₁.agree hw hw' hagree h₂
  exact ⟨rfl, rfl, hagrees, h₁.untouched hw, h₂.untouched hw'⟩

end

/-! ## Another customer of the small wallet -/

namespace TopUp.Sample

def neighbour : User := { user with id := ⟨2, by decide⟩, username := "jade" }

def world (balance : Decimal) (cache : CacheStore) : World where
  users := fun username => if username = neighbour.username then some neighbour else users username
  store := ⟨[account hundred, { account balance with id := "A-2", userId := neighbour.id }], cache⟩

def conduct : Conduct := ⟨calm, fun _ _ => false, fun _ => false⟩

theorem separate (balance : Decimal) (cache : CacheStore) : (world balance cache).Separate := by
  refine ⟨fun username username' x y hx hy hid => ?_, by simp [world, account]⟩
  have hcases : ∀ {name : String} {z : User}, (world balance cache).users name = some z →
      name = neighbour.username ∧ z = neighbour ∨ name = user.username ∧ z = user := by
    intro name z hz
    unfold world users at hz
    dsimp only at hz
    split_ifs at hz with hneighbour huser
    · exact .inl ⟨hneighbour, (Option.some.inj hz).symm⟩
    · exact .inr ⟨huser, (Option.some.inj hz).symm⟩
  have hdiffer : neighbour.id ≠ user.id := by decide
  rcases hcases hx with ⟨rfl, rfl⟩ | ⟨rfl, rfl⟩ <;> rcases hcases hy with ⟨rfl, rfl⟩ | ⟨rfl, rfl⟩
  · rfl
  · exact absurd hid hdiffer
  · exact absurd hid.symm hdiffer
  · rfl

theorem agree : Agree user.username (world forty []) (world sixty [("account:jade", ⟨"x", none⟩)]) :=
  ⟨rfl, rfl, fun f => by cases f <;> rfl⟩

theorem exists_carriedOut_sixty (balance : Decimal) :
    ∃ v, CarriedOut conduct registry user.username (.topUp (request sixty)) (world balance [])
      (.ok (receipt hundred sixty forty forty)) v := by
  have hcons : ∀ {w : World} {past history : Service.History} {q : Service.Question} {answer : Service.Answer q},
      (answer = conduct.reply w past q ∧
        ∃ s, Served (Conduct.Serves conduct) (conduct.after w past q, past ++ [⟨q, answer⟩]) history s) →
      ∃ s, Served (Conduct.Serves conduct) (w, past) (⟨q, answer⟩ :: history) s :=
    fun ⟨hanswer, s, hrest⟩ => ⟨s, served_cons.mpr ⟨hanswer, hrest⟩⟩
  obtain ⟨⟨v, past⟩, hserved⟩ : ∃ s, Served (Conduct.Serves conduct) (world balance [], [])
      (wholeHistory hundred sixty forty) s := by
    simp only [wholeHistory, settlement, Placing.history, Placing.debitHistory, ending, counted, List.cons_append,
      List.nil_append]
    iterate 12 refine hcons ⟨rfl, ?_⟩
    exact ⟨_, .nil _⟩
  obtain rfl : past = wholeHistory hundred sixty forty := past_of_served hserved
  obtain ⟨cache, hensues⟩ := exists_ensues conduct.fails (dispatched (wholeHistory hundred sixty forty)) v.store.cache
  exact ⟨_, .intro (yields_topUp rfl sixty_le_hundred hundred_sub?_sixty) hserved hensues⟩

end TopUp.Sample

open TopUp.Sample in
theorem users_isolated_amber : ∃ v v',
    CarriedOut conduct registry user.username (.topUp (request sixty)) (world forty [])
        (.ok (receipt hundred sixty forty forty)) v ∧
      CarriedOut conduct registry user.username (.topUp (request sixty)) (world sixty [("account:jade", ⟨"x", none⟩)])
        (.ok (receipt hundred sixty forty forty)) v' ∧
      Agree user.username v v' ∧ Untouched user.username (world forty []) v := by
  obtain ⟨v, hv⟩ := exists_carriedOut_sixty forty
  obtain ⟨r, -, ⟨v', hv'⟩, hall⟩ := users_isolated conduct registry user.username (.topUp (request sixty))
    (separate forty []) (separate sixty [("account:jade", ⟨"x", none⟩)]) agree
  obtain ⟨rfl, -, hagree, huntouched, -⟩ := hall _ v _ v' hv hv'
  exact ⟨v, v', hv, hv', hagree, huntouched⟩

end WalletTopUp
