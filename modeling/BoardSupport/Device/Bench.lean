import BoardSupport.Device.RegisterFile
import BoardSupport.Service

/-!
# A Bench for Drivers

A register file as a test uses it.

On a bench a driver sees an ordinary bus. The test sees more: it can set a
register before the driver runs, and have the log start over. Neither goes
over the bus, so a bench is asked for more than a device.

The test can also use the bus by hand, and that is what the calls of a session
are about: one access of one width, or one of the three ways in which a driver
reads a register, changes it and writes it back.

## Main definitions

* `Bench.Operation`: What a bench may be asked for.
* `Bench.machine`: A register file as a bench.
* `Bench.drive`: A driver on a bench.
* `Bench.Change`: The three ways of changing a register.
* `Bench.Call`, `Bench.Reply`: What a test can do, and what it is told.
* `Bench.service`: The bench as a service.
-/

namespace BoardSupport

namespace Bench

open Bus (Width)

/-- What a bench may be asked for. -/
inductive Operation where
  | access (operation : Bus.Operation)
  | preset (offset : Nat) (word : BitVec 64)
  | clearLog

namespace Operation

/-- An access is answered as on any bus; what goes past the bus is answered
    nothing. -/
@[reducible] def Answer : Operation → Type
  | access operation => operation.Answer
  | preset _ _ => Unit
  | clearLog => Unit

end Operation

/-- A bus to drive, registers to set and a log to clear. -/
@[reducible] def interface : Interface :=
  ⟨Operation, Operation.Answer⟩

/-- A program for a bench. Nothing can go wrong there. -/
abbrev Task (α : Type) :=
  Program interface Empty α

/-- Ask for one operation. -/
def ask (operation : Operation) : Task operation.Answer :=
  .ask operation fun answer => .done (.ok answer)

/-- A driver on a bench. -/
def drive {α : Type} (p : Driver Empty α) : Task α :=
  p.interpret fun operation => ask (.access operation)

/-- A register file as a bench. -/
def machine : Machine interface RegisterFile
  | .access operation, f => RegisterFile.device.machine operation f
  | .preset offset word, f => ((), f.preset offset word)
  | .clearLog, f => ((), f.clearLog)

/-- The three ways of changing a register. -/
inductive Change (bits : Nat) where
  | modify (keep set : BitVec bits)
  | setBits (set : BitVec bits)
  | clearBits (clear : BitVec bits)
  deriving DecidableEq, Repr

/-- Change a register and deliver what was written. -/
def Change.program {bits : Nat} (offset : Nat) : Change bits → Driver Empty (BitVec bits)
  | .modify keep set => Bus.modify bits offset keep set
  | .setBits set => Bus.setBits bits offset set
  | .clearBits clear => Bus.clearBits bits offset clear

/-- What a test can do, in any width. -/
inductive Call where
  | preset (w : Width) (offset : Nat) (value : BitVec w.bits)
  | write (w : Width) (offset : Nat) (value : BitVec w.bits)
  | change (w : Width) (offset : Nat) (how : Change w.bits)
  | read (w : Width) (offset : Nat)
  | clearLog
  deriving DecidableEq, Repr

/-- What a test is told. -/
inductive Reply where
  | done
  | value (w : Width) (v : BitVec w.bits)
  deriving DecidableEq, Repr

/-- The program behind a call. -/
def Call.program : Call → Task Reply
  | .preset _ offset value => do
    ask (.preset offset (value.setWidth 64))
    pure .done
  | .write w offset value => do
    drive (Bus.write w.bits offset value)
    pure .done
  | .change w offset how => do
    let new ← drive (how.program offset)
    pure (.value w new)
  | .read w offset => do
    let value ← drive (Bus.read w.bits offset)
    pure (.value w value)
  | .clearLog => do
    ask .clearLog
    pure .done

/-- The bench as a service, which keeps nothing but the file. -/
def service : Service interface Unit Call Empty Reply :=
  ⟨fun _ call => call.program, fun _ _ => ()⟩

end Bench

end BoardSupport
