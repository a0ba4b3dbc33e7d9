/-!
# Programs that ask

A service that talks to a ledger, a cache, a wallet provider or a clock is written here as a tree of
questions: `Program I α` either is finished with a result or puts one question of the interface `I`
and goes on from the answer. The tree decides nothing about who answers. `Program.run` hands every
question to a monad, and `Program.interpret` answers the questions of one interface by programs of
another, so that a whole service is stacked from small interfaces.
-/

namespace WalletTopUp

/-- What a program may ask and the type of each answer. -/
structure Interface where
  Question : Type
  Answer : Question → Type

/-- A result, or a question together with what to do with its answer. -/
inductive Program (I : Interface) (α : Type) where
  | finish (result : α)
  | ask (question : I.Question) (next : I.Answer question → Program I α)

namespace Program

variable {I J : Interface} {α β γ : Type}

/-- First `x`, then `f` on its result. -/
def bind (x : Program I α) (f : α → Program I β) : Program I β :=
  match x with
  | finish a => f a
  | ask q next => ask q fun answer => (next answer).bind f

instance : Monad (Program I) where
  pure := finish
  bind := bind

/-- The program that asks one question and returns the answer. -/
def perform (question : I.Question) : Program I (I.Answer question) :=
  ask question finish

/-- Answer every question in the monad `m`. -/
def run {m : Type → Type} [Monad m] (answer : (q : I.Question) → m (I.Answer q)) :
    Program I α → m α
  | finish a => pure a
  | ask q next => do (next (← answer q)).run answer

/-- Answer every question by a program over another interface. -/
def interpret (answer : (q : I.Question) → Program J (I.Answer q)) (x : Program I α) :
    Program J α :=
  x.run answer

@[simp] theorem pure_eq (a : α) : (pure a : Program I α) = finish a := rfl

@[simp] theorem bind_eq (x : Program I α) (f : α → Program I β) : x >>= f = x.bind f := rfl

@[simp] theorem finish_bind (a : α) (f : α → Program I β) : (finish a).bind f = f a := rfl

@[simp] theorem ask_bind (q : I.Question) (next : I.Answer q → Program I α)
    (f : α → Program I β) : (ask q next).bind f = ask q fun a => (next a).bind f := rfl

theorem bind_finish (x : Program I α) : x.bind finish = x := by
  induction x with
  | finish a => rfl
  | ask q next ih => simp [ih]

theorem bind_assoc (x : Program I α) (f : α → Program I β) (g : β → Program I γ) :
    (x.bind f).bind g = x.bind fun a => (f a).bind g := by
  induction x with
  | finish a => rfl
  | ask q next ih => simp [ih]

instance : LawfulMonad (Program I) :=
  LawfulMonad.mk' _ bind_finish (fun _ _ => rfl) bind_assoc

@[simp] theorem run_finish {m : Type → Type} [Monad m]
    (answer : (q : I.Question) → m (I.Answer q)) (a : α) :
    (finish a : Program I α).run answer = pure a := rfl

@[simp] theorem run_ask {m : Type → Type} [Monad m] (answer : (q : I.Question) → m (I.Answer q))
    (q : I.Question) (next : I.Answer q → Program I α) :
    (ask q next).run answer = answer q >>= fun a => (next a).run answer := rfl

theorem run_bind {m : Type → Type} [Monad m] [LawfulMonad m]
    (answer : (q : I.Question) → m (I.Answer q)) (x : Program I α) (f : α → Program I β) :
    (x.bind f).run answer = x.run answer >>= fun a => (f a).run answer := by
  induction x with
  | finish a => simp
  | ask q next ih => simp [ih]

end Program

/-- A program that may stop early with an error. -/
abbrev Attempt (I : Interface) (ε α : Type) := ExceptT ε (Program I) α

/-- Ask one question inside an attempt; the answer itself is never an error. -/
def Attempt.perform {I : Interface} {ε : Type} (question : I.Question) :
    Attempt I ε (I.Answer question) :=
  ExceptT.lift (Program.perform question)

end WalletTopUp
