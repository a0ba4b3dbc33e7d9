import WalletTopUp.Proofs.History
import WalletTopUp.Service.Lookup

/-!
# The course of a lookup

A lookup either finds something in the cache that it can use, or it reads the user and the account, and if both are
there it puts what it has read into the cache. `yields_lookup_iff` says so with all questions, answers and results.
-/

namespace WalletTopUp.Service

section
variable {α β : Type} {view : Account → α} {username : String} {history : Service.History} {r : Except Fault α}

theorem yields_serving_step_iff {q : Question} {f : Answer q → Serving β} {r : Except Fault β} :
    (step q >>= f).run.Yields history r ↔
      ∃ answer rest, history = ⟨q, answer⟩ :: rest ∧ (f answer).run.Yields rest r :=
  Attempt.yields_perform_bind_iff

/-! ## Reading the ledger -/

variable (view username) in
/-- The histories of reading what a user may see of an account, each with its result. -/
inductive Read : Service.History → Except Fault α → Prop
  | userFault (fault : Fault) : Read [⟨.findUser username, .error fault⟩] (.error fault)
  | noUser : Read [⟨.findUser username, .ok none⟩] (.error (.notFound (.of ("user not found: " ++ username))))
  | accountFault (user : User) (fault : Fault) :
      Read [⟨.findUser username, .ok (some user)⟩, ⟨.readAccount user.id, .error fault⟩] (.error fault)
  | noAccount (user : User) :
      Read [⟨.findUser username, .ok (some user)⟩, ⟨.readAccount user.id, .ok none⟩]
        (.error (.notFound (.of ("account not found for user: " ++ user.username))))
  | read (user : User) (account : Account) :
      Read [⟨.findUser username, .ok (some user)⟩, ⟨.readAccount user.id, .ok (some account)⟩] (.ok (view account))

theorem readView_bind (f : α → Serving β) :
    readView view username >>= f = step (.findUser username) >>= fun
      | .error fault => throw fault
      | .ok none => throw (.notFound (.of ("user not found: " ++ username)))
      | .ok (some user) => step (.readAccount user.id) >>= fun
        | .error fault => throw fault
        | .ok none => throw (.notFound (.of ("account not found for user: " ++ user.username)))
        | .ok (some account) => f (view account) := by
  refine congrArg (Program.ask (I := Service) (.findUser username)) (funext fun answer => ?_)
  rcases answer with fault | (_ | user)
  · rfl
  · rfl
  · refine congrArg (Program.ask (I := Service) (.readAccount user.id)) (funext fun answer => ?_)
    rcases answer with fault | (_ | account) <;> rfl

theorem yields_readView_bind_iff {f : α → Serving β} {r : Except Fault β} :
    (readView view username >>= f).run.Yields history r ↔
      (∃ fault, Read view username history (.error fault) ∧ r = .error fault) ∨
        ∃ read rest a, history = read ++ rest ∧ Read view username read (.ok a) ∧ (f a).run.Yields rest r := by
  rw [readView_bind, yields_serving_step_iff]
  constructor
  · rintro ⟨fault | (_ | user), rest, rfl, h⟩
    · obtain ⟨rfl, rfl⟩ := Attempt.yields_throw_iff.mp h
      exact .inl ⟨fault, .userFault fault, rfl⟩
    · obtain ⟨rfl, rfl⟩ := Attempt.yields_throw_iff.mp h
      exact .inl ⟨_, .noUser, rfl⟩
    dsimp only at h
    obtain ⟨fault | (_ | account), rest, rfl, hrest⟩ := yields_serving_step_iff.mp h
    · obtain ⟨rfl, rfl⟩ := Attempt.yields_throw_iff.mp hrest
      exact .inl ⟨fault, .accountFault user fault, rfl⟩
    · obtain ⟨rfl, rfl⟩ := Attempt.yields_throw_iff.mp hrest
      exact .inl ⟨_, .noAccount user, rfl⟩
    · exact .inr ⟨_, rest, _, rfl, .read user account, hrest⟩
  · rintro (⟨fault, hread, rfl⟩ | ⟨read, rest, a, rfl, hread, h⟩)
    · cases hread with
      | userFault => exact ⟨_, [], rfl, Attempt.yields_throw_iff.mpr ⟨rfl, rfl⟩⟩
      | noUser => exact ⟨_, [], rfl, Attempt.yields_throw_iff.mpr ⟨rfl, rfl⟩⟩
      | accountFault user =>
        refine ⟨.ok (some user), _, rfl, yields_serving_step_iff.mpr ⟨.error _, [], rfl, ?_⟩⟩
        exact Attempt.yields_throw_iff.mpr ⟨rfl, rfl⟩
      | noAccount user =>
        refine ⟨.ok (some user), _, rfl, yields_serving_step_iff.mpr ⟨.ok none, [], rfl, ?_⟩⟩
        exact Attempt.yields_throw_iff.mpr ⟨rfl, rfl⟩
    · cases hread with
      | read user account =>
        exact ⟨.ok (some user), _, rfl, yields_serving_step_iff.mpr ⟨.ok (some account), rest, rfl, h⟩⟩

theorem yields_readView_iff : (readView view username).run.Yields history r ↔ Read view username history r := by
  rw [← bind_pure (readView view username), yields_readView_bind_iff]
  constructor
  · rintro (⟨fault, hread, rfl⟩ | ⟨read, _, a, rfl, hread, h⟩)
    · exact hread
    · obtain ⟨rfl, rfl⟩ := Attempt.yields_pure_iff.mp h
      rwa [List.append_nil]
  · intro h
    rcases r with fault | a
    · exact .inl ⟨fault, h, rfl⟩
    · exact .inr ⟨history, [], a, (List.append_nil _).symm, h, Attempt.yields_pure_iff.mpr ⟨rfl, rfl⟩⟩

/-! ## Looking it up -/

/-- What can be used of the answer of the cache. -/
def held? (α : Type) [Json.Form α] (answer : Except String (Option String)) : Option α :=
  match answer with
  | .ok (some entry) => (Json.decode entry : Except Json.Failure α).toOption
  | _ => none

variable [Json.Form α] {key : String} {minutes : Nat}

variable (view username key minutes) in
/-- The histories of a lookup, each with its result. -/
inductive Looked : Service.History → Except Fault α → Prop
  /-- The cache holds it. -/
  | held {answer : Except String (Option String)} {a : α} (h : held? α answer = some a) :
      Looked [⟨.readCache key, answer⟩] (.ok a)
  | failed {answer : Except String (Option String)} (h : held? α answer = none) {read : Service.History} {fault : Fault}
      (hread : Read view username read (.error fault)) : Looked (⟨.readCache key, answer⟩ :: read) (.error fault)
  /-- It is read and put into the cache. -/
  | filled {answer : Except String (Option String)} (h : held? α answer = none) {read : Service.History} {a : α}
      (hread : Read view username read (.ok a)) (written : Except String Unit) :
      Looked (⟨.readCache key, answer⟩ :: (read ++ [⟨.writeCache key (Json.encode a) minutes, written⟩])) (.ok a)

theorem lookup_eq : lookup key minutes view username = step (.readCache key) >>= fun answer =>
    match held? α answer with
    | some a => pure a
    | none => readView view username >>= fun a =>
      step (.writeCache key (Json.encode a) minutes) >>= fun _ => pure a := by
  refine congrArg (Program.ask (I := Service) (.readCache key)) (funext fun answer => ?_)
  rcases answer with reason | (_ | entry) <;> rfl

/-- **All histories of a lookup.** -/
theorem yields_lookup_iff :
    (lookup key minutes view username).run.Yields history r ↔ Looked view username key minutes history r := by
  rw [lookup_eq, yields_serving_step_iff]
  constructor
  · rintro ⟨answer, rest, rfl, h⟩
    rcases hheld : held? α answer with _ | a <;> rw [hheld] at h
    · rcases yields_readView_bind_iff.mp h with ⟨fault, hread, rfl⟩ | ⟨read, _, a, rfl, hread, hwrite⟩
      · exact .failed hheld hread
      · obtain ⟨written, _, rfl, hend⟩ := yields_serving_step_iff.mp hwrite
        obtain ⟨rfl, rfl⟩ := Attempt.yields_pure_iff.mp hend
        exact .filled hheld hread written
    · obtain ⟨rfl, rfl⟩ := Attempt.yields_pure_iff.mp h
      exact .held hheld
  · rintro (@⟨answer, a, hheld⟩ | @⟨answer, hheld, read, fault, hread⟩ | @⟨answer, hheld, read, a, hread, written⟩)
    · refine ⟨answer, [], rfl, ?_⟩
      rw [hheld]
      exact Attempt.yields_pure_iff.mpr ⟨rfl, rfl⟩
    · refine ⟨answer, read, rfl, ?_⟩
      rw [hheld]
      exact yields_readView_bind_iff.mpr (.inl ⟨fault, hread, rfl⟩)
    · refine ⟨answer, _, rfl, ?_⟩
      rw [hheld]
      refine yields_readView_bind_iff.mpr (.inr ⟨read, _, a, rfl, hread, ?_⟩)
      exact yields_serving_step_iff.mpr ⟨written, [], rfl, Attempt.yields_pure_iff.mpr ⟨rfl, rfl⟩⟩

end

end WalletTopUp.Service
