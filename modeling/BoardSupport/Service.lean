import BoardSupport.Program

/-!
# Services

A driver as its clients see it: calls they can make, one after another.

A service says which program carries out a call. The driver may keep something
between calls, such as what it has found out about its device; the program
depends on that, and the way a call ended says what is kept from then on.

What came of a call is a turn: everything that was asked of the surroundings
for it, with the answers, and how it ended. The surroundings live on from turn
to turn.

## Main definitions

* `Service`: The program behind each call, and what is kept.
* `Service.Turn`: What came of one call.
* `Service.turns`: Calls made one after another on one machine.
* `Service.events`: Everything asked for in some turns.
* `Service.leaves`: The machine as some calls leave it.
-/

namespace BoardSupport

/-- A driver that keeps a `κ` between calls: the program behind a call, and what
    is kept once it has ended. -/
structure Service (I : Interface) (κ ι ε ρ : Type) where
  program : κ → ι → Program I ε ρ
  after : κ → Outcome ε ρ → κ

namespace Service

variable {I : Interface} {κ ι ε ρ σ : Type}

/-- What came of one call: what was asked for it, how it ended, and what the
    driver keeps. -/
structure Turn (I : Interface) (κ ι ε ρ : Type) where
  call : ι
  asked : List (Event I)
  outcome : Outcome ε ρ
  kept : κ

/-- Make calls one after another, each on the machine as the one before left
    it. -/
def turns (service : Service I κ ι ε ρ) (machine : Machine I σ) (kept : κ) (s : σ) :
    List ι → List (Turn I κ ι ε ρ)
  | [] => []
  | call :: rest =>
    let (outcome, r) := (service.program kept call).run machine.recorded (.start s)
    let kept := service.after kept outcome
    ⟨call, r.events, outcome, kept⟩ :: service.turns machine kept r.state rest

/-- Everything asked for in some turns, in order. -/
def events (turns : List (Turn I κ ι ε ρ)) : List (Event I) :=
  turns.flatMap Turn.asked

/-- The machine as calls made one after another leave it. -/
def leaves (service : Service I κ ι ε ρ) (machine : Machine I σ) (kept : κ) (s : σ) : List ι → σ
  | [] => s
  | call :: rest =>
    let (outcome, s) := (service.program kept call).run machine s
    service.leaves machine (service.after kept outcome) s rest

end Service

end BoardSupport
