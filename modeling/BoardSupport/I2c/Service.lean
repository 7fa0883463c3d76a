import BoardSupport.I2c.Controller
import BoardSupport.Service

/-!
# Calls on an I2C Controller

What a client can ask of a controller, and what the controller knows
afterwards.

Only starting changes what is known: the depth of the FIFO. It is kept from
the moment it has been found, so a failure carries the controller as well.

## Main definitions

* `I2c.Call`: What a client can ask for.
* `I2c.Reply`: What a client is told.
* `I2c.service`: The controller as a service.
-/

namespace BoardSupport

namespace I2c

/-- What a client can ask of a controller. -/
inductive Call where
  | reset
  | start
  | setBusFrequency (requested : UInt32)
  | busDivisors
  | busActive
  | waitBusInactive
  | pendingInterrupts
  deriving DecidableEq, Repr

/-- What a client is told. -/
inductive Reply where
  | done
  | clock (hertz : Nat)
  | divisors (d : Divisors)
  | active (isActive : Bool)
  | pending (set : BitVec 16)
  deriving DecidableEq, Repr

namespace Controller

/-- A call that tells the controller nothing about itself. -/
def keeping {α : Type} (c : Controller) (tell : α → Reply) (p : Driver Error α) :
    Driver Failure (Reply × Controller) := do
  let a ← p.mapError fun cause => ⟨cause, c⟩
  pure (tell a, c)

/-- The program behind a call. -/
def serve (c : Controller) : Call → Driver Failure (Reply × Controller)
  | .reset => c.keeping (fun _ => .done) c.reset
  | .start => do
    let c ← c.start
    pure (.done, c)
  | .setBusFrequency requested => c.keeping .clock (c.setBusFrequency requested)
  | .busDivisors => c.keeping .divisors busDivisors
  | .busActive => c.keeping .active busActive
  | .waitBusInactive => c.keeping (fun _ => .done) c.waitBusInactive
  | .pendingInterrupts => c.keeping .pending c.pendingInterrupts

/-- The controller once a call has ended. -/
def after (c : Controller) : Outcome Failure (Reply × Controller) → Controller
  | .ok (_, c) => c
  | .error failure => failure.controller
  | .fault => c

end Controller

/-- A controller as a service. -/
def service : Service Bus.interface Controller Call Controller.Failure (Reply × Controller) :=
  ⟨Controller.serve, Controller.after⟩

end I2c

end BoardSupport
