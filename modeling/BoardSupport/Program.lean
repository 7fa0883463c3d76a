/-!
# Programs and Their Surroundings

Driver code as data, kept apart from what it drives.

A program is a tree. A leaf says how the program ended; a branch names one
operation it asks of its surroundings and what it does with each answer. What
the surroundings do is no part of the tree: a machine answers the operations,
and running a program on a machine is a recursion on the tree. So a statement
about every device is a statement about every machine, and a statement about
what a driver may ask is an induction on its tree.

Every program is a finite tree, so every run ends. A loop that waits for a
device carries the number of times it is prepared to ask.

A program ends in one of three ways. It delivers a value, or it reports an
error it knows about, or it is stopped by a failed assertion. The last is not
an error anyone handles, but it is recorded rather than ruled out: that some
driver never gets there is a fact to be shown about the driver.

## Main definitions

* `Outcome`: How a program ended.
* `Interface`: The operations of some surroundings and the types of their
  answers.
* `Program`: A tree of operations.
* `Machine`: Surroundings with a state.
* `Program.interpret`: A program carried out in terms of other operations.
* `Program.run`: A program run on a machine.
* `Machine.recorded`: A machine that remembers what it was asked.

## Theorems

* `Program.run_bind`: Running two programs in sequence.
* `Program.bind_assoc`: Sequencing is associative.
* `Machine.run_recorded`: Recording changes nothing.
-/

namespace BoardSupport

/-- How a program ended: with a value, with an error, or by a failed
    assertion. -/
inductive Outcome (ε α : Type) where
  | ok (value : α)
  | error (cause : ε)
  | fault
  deriving DecidableEq, Repr

/-- The operations that can be asked of some surroundings, each with the type
    of its answers. -/
structure Interface where
  Operation : Type
  Answer : Operation → Type

/-- A tree of operations: either ended, or one operation and a program for
    every answer to it. -/
inductive Program (I : Interface) (ε α : Type) where
  | done (outcome : Outcome ε α)
  | ask (operation : I.Operation) (next : I.Answer operation → Program I ε α)

/-- Surroundings with a state: each operation is answered at once and may
    change the state. -/
abbrev Machine (I : Interface) (σ : Type) :=
  (operation : I.Operation) → σ → I.Answer operation × σ

/-- One operation together with the answer it got. -/
structure Event (I : Interface) where
  operation : I.Operation
  answer : I.Answer operation

namespace Program

variable {I : Interface} {ε ε' α β γ σ : Type}

/-- End by an error. -/
def fail (cause : ε) : Program I ε α :=
  .done (.error cause)

/-- End by a failed assertion. -/
def fault : Program I ε α :=
  .done .fault

/-- Run one program and go on with the value it delivers. -/
def bind : Program I ε α → (α → Program I ε β) → Program I ε β
  | .done (.ok value), f => f value
  | .done (.error cause), _ => .done (.error cause)
  | .done .fault, _ => .done .fault
  | .ask operation next, f => .ask operation fun answer => (next answer).bind f

instance : Monad (Program I ε) where
  pure value := .done (.ok value)
  bind := bind

/-- The value of a computation without operations, or its error. -/
def ofExcept : Except ε α → Program I ε α
  | .ok value => .done (.ok value)
  | .error cause => .done (.error cause)

/-- The value of a partial function; its absence is a failed assertion. -/
def expect : Option α → Program I ε α
  | some value => .done (.ok value)
  | none => .done .fault

/-- Run a program to its end and deliver its value or error, so that neither
    ends the whole. -/
def attempt : Program I ε α → Program I ε' (Except ε α)
  | .done (.ok value) => .done (.ok (.ok value))
  | .done (.error cause) => .done (.ok (.error cause))
  | .done .fault => .done .fault
  | .ask operation next => .ask operation fun answer => (next answer).attempt

/-- Report errors in other words. -/
def mapError (f : ε → ε') : Program I ε α → Program I ε' α
  | .done (.ok value) => .done (.ok value)
  | .done (.error cause) => .done (.error (f cause))
  | .done .fault => .done .fault
  | .ask operation next => .ask operation fun answer => (next answer).mapError f

/-- On an error, run `handler` first and then end with the same error. -/
def onError (handler : ε → Program I ε Unit) : Program I ε α → Program I ε α
  | .done (.ok value) => .done (.ok value)
  | .done (.error cause) => (handler cause).bind fun _ => .done (.error cause)
  | .done .fault => .done .fault
  | .ask operation next => .ask operation fun answer => (next answer).onError handler

/-- Refuse some operations: a program that asks for one of them is stopped
    there by a failed assertion. -/
def guarded (allowed : I.Operation → Bool) : Program I ε α → Program I ε α
  | .done outcome => .done outcome
  | .ask operation next =>
    if allowed operation then
      .ask operation fun answer => (next answer).guarded allowed
    else
      .done .fault

/-- Carry out a program in terms of other operations: each operation it asks
    for is replaced by a program. -/
def interpret {J : Interface}
    (carryOut : (operation : I.Operation) → Program J ε (I.Answer operation)) :
    Program I ε α → Program J ε α
  | .done outcome => .done outcome
  | .ask operation next =>
    (carryOut operation).bind fun answer => (next answer).interpret carryOut

/-- Run a program only if a condition holds. -/
def when (condition : Bool) (p : Program I ε Unit) : Program I ε Unit :=
  if condition then p else .done (.ok ())

/-- Run a program for each element of a list, in order. -/
def forEach (f : α → Program I ε Unit) : List α → Program I ε Unit
  | [] => .done (.ok ())
  | a :: rest => (f a).bind fun _ => forEach f rest

/-- Ask at most `tries` times, until an answer is accepted. Delivers the first
    accepted answer, or nothing once the tries are used up. -/
def poll (tries : Nat) (question : Program I ε α) (accept : α → Bool) :
    Program I ε (Option α) :=
  match tries with
  | 0 => .done (.ok none)
  | tries + 1 => question.bind fun answer =>
    if accept answer then .done (.ok (some answer)) else poll tries question accept

/-- Run a program in its surroundings. Delivers its outcome, and their state after
    it. -/
def run (machine : Machine I σ) : Program I ε α → σ → Outcome ε α × σ
  | .done outcome, state => (outcome, state)
  | .ask operation next, state =>
    let (answer, state) := machine operation state
    run machine (next answer) state

@[simp] theorem run_done (machine : Machine I σ) (outcome : Outcome ε α) (state : σ) :
    run machine (.done outcome) state = (outcome, state) := rfl

@[simp] theorem run_ask (machine : Machine I σ) (operation : I.Operation)
    (next : I.Answer operation → Program I ε α) (state : σ) :
    run machine (.ask operation next) state =
      run machine (next (machine operation state).1) (machine operation state).2 := rfl

@[simp] theorem run_pure (machine : Machine I σ) (value : α) (state : σ) :
    run machine (pure value : Program I ε α) state = (.ok value, state) := rfl

/-- Sequencing is associative. -/
theorem bind_assoc (p : Program I ε α) (f : α → Program I ε β) (g : β → Program I ε γ) :
    (p.bind f).bind g = p.bind fun a => (f a).bind g := by
  induction p with
  | done outcome => cases outcome <;> rfl
  | ask operation next ih => exact congrArg (Program.ask operation) (funext ih)

/-- Delivering the value of a program is the program. -/
theorem bind_done_ok (p : Program I ε α) : p.bind (fun a => .done (.ok a)) = p := by
  induction p with
  | done outcome => cases outcome <;> rfl
  | ask operation next ih => exact congrArg (Program.ask operation) (funext ih)

instance : LawfulMonad (Program I ε) :=
  LawfulMonad.mk' _ bind_done_ok (fun _ _ => rfl) bind_assoc

/-- Running two programs in sequence: the second runs only if the first
    delivers a value, and starts where the first left the machine. -/
theorem run_bind (machine : Machine I σ) (p : Program I ε α) (f : α → Program I ε β)
    (state : σ) :
    run machine (p.bind f) state =
      match run machine p state with
      | (.ok value, state) => run machine (f value) state
      | (.error cause, state) => (.error cause, state)
      | (.fault, state) => (.fault, state) := by
  induction p generalizing state with
  | done outcome => cases outcome <;> rfl
  | ask operation next ih => exact ih _ _

end Program

namespace Machine

variable {I : Interface} {σ : Type}

/-- A machine's state together with everything it was asked, latest first. -/
structure Recording (I : Interface) (σ : Type) where
  state : σ
  latest : List (Event I)

/-- Start recording from a state. -/
def Recording.start (state : σ) : Recording I σ :=
  ⟨state, []⟩

/-- What was asked and answered, in order. -/
def Recording.events (r : Recording I σ) : List (Event I) :=
  r.latest.reverse

/-- The same machine, remembering every operation and its answer. -/
def recorded (machine : Machine I σ) : Machine I (Recording I σ) :=
  fun operation r =>
    let (answer, state) := machine operation r.state
    (answer, ⟨state, ⟨operation, answer⟩ :: r.latest⟩)

/-- Recording changes neither how a program ends nor the machine. -/
theorem run_recorded {ε α : Type} (machine : Machine I σ) (p : Program I ε α)
    (r : Recording I σ) :
    (p.run machine.recorded r).1 = (p.run machine r.state).1 ∧
      (p.run machine.recorded r).2.state = (p.run machine r.state).2 := by
  induction p generalizing r with
  | done outcome => exact ⟨rfl, rfl⟩
  | ask operation next ih => exact ih _ _

end Machine

end BoardSupport
