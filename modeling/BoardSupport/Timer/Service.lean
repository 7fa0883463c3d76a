import BoardSupport.Service
import BoardSupport.Timer.Clint

/-!
# Calls on the Timer

What a client can ask of the timer. No call fails, and nothing is kept between
calls.

On the board the timer's registers are memory behind a fixed address, where an
access has to be aligned to its width.

## Main definitions

* `Clint.Call`: What a client can ask for.
* `Clint.Reply`: What a client is told.
* `Clint.service`: The timer as a service.
* `Clint.mapped`: The same in the timer's window.
-/

namespace BoardSupport

namespace Clint

/-- What a client can ask of the timer. -/
inductive Call where
  | clock
  | deadline (h : Hart)
  | setDeadline (h : Hart) (time : BitVec 64)
  | armAfter (h : Hart) (ticks : BitVec 64)
  | disarm (h : Hart)
  | timerExpired (h : Hart)
  | raiseInterrupt (h : Hart)
  | clearInterrupt (h : Hart)
  | interruptPending (h : Hart)
  deriving DecidableEq, Repr

/-- What a client is told. -/
inductive Reply where
  | done
  | time (t : BitVec 64)
  | holds (yes : Bool)
  deriving DecidableEq, Repr

/-- A driver whose value is told to a client in this way. -/
def telling {ε α : Type} (tell : α → Reply) (p : Driver ε α) : Driver ε Reply := do
  let a ← p
  pure (tell a)

/-- The program behind a call. -/
def Call.program : Call → Driver Empty Reply
  | .clock => telling .time Clint.clock
  | .deadline h => telling .time (Clint.deadline h)
  | .setDeadline h time => telling (fun _ => .done) (Clint.setDeadline h time)
  | .armAfter h ticks => telling .time (Clint.armAfter h ticks)
  | .disarm h => telling (fun _ => .done) (Clint.disarm h)
  | .timerExpired h => telling .holds (Clint.timerExpired h)
  | .raiseInterrupt h => telling (fun _ => .done) (Clint.raiseInterrupt h)
  | .clearInterrupt h => telling (fun _ => .done) (Clint.clearInterrupt h)
  | .interruptPending h => telling .holds (Clint.interruptPending h)

/-- The timer as a service. -/
def service : Service Bus.interface Unit Call Empty Reply :=
  ⟨fun _ call => call.program, fun _ _ => ()⟩

/-- The timer as a service in its window, where an access that is not aligned is a
    failed assertion. -/
def mapped : Service Bus.interface Unit Call Empty Reply :=
  ⟨fun _ call => Bus.aligned Timer.base.toNat call.program, fun _ _ => ()⟩

end Clint

end BoardSupport
