import BoardSupport.Log
import BoardSupport.Program

/-!
# The Register Bus

What a device driver may ask of the board: read a register, write a register,
and say something to the log.

A register is named by its offset in the device's window, and an access has a
width in bits; the devices of this library use four of them. A driver is a
program over this interface. Nothing is assumed here about what a read
answers.

A device is the other side: it answers reads, takes writes, and does not care
what is said to the log.

## Main definitions

* `Bus.Width`: The widths of registers.
* `Bus.Operation`: The three operations.
* `Driver`: A program that uses them.
* `Bus.read`, `Bus.write`, `Bus.log`: One operation each.
* `Bus.modify`, `Bus.setBits`, `Bus.clearBits`: Read, change and write back.
* `Device`: What answers a driver.
* `Bus.aligned`: Refusing accesses that no memory bus would carry out.
-/

namespace BoardSupport

namespace Bus

/-- The widths in which registers are accessed. -/
inductive Width where
  | byte | half | word | double
  deriving DecidableEq, Repr

namespace Width

/-- The number of bits of an access. -/
def bits : Width → Nat
  | byte => 8
  | half => 16
  | word => 32
  | double => 64

/-- No access is wider than a double word. -/
theorem bits_le (w : Width) : w.bits ≤ 64 := by
  cases w <;> decide

end Width

/-- What a driver may ask of the board. -/
inductive Operation where
  | read (bits offset : Nat)
  | write (bits offset : Nat) (value : BitVec bits)
  | log (level : Log.Level) (message : String)

namespace Operation

/-- A read answers with a word of the width asked for; the other operations
    answer nothing. -/
@[reducible] def Answer : Operation → Type
  | read bits _ => BitVec bits
  | write _ _ _ => Unit
  | log _ _ => Unit

end Operation

/-- Registers to read and write, and a log. -/
@[reducible] def interface : Interface :=
  ⟨Operation, Operation.Answer⟩

end Bus

/-- A program over the register bus. -/
abbrev Driver (ε α : Type) :=
  Program Bus.interface ε α

namespace Bus

variable {ε : Type}

/-- Read a register. -/
def read (bits offset : Nat) : Driver ε (BitVec bits) :=
  .ask (.read bits offset) fun value => .done (.ok value)

/-- Write a register. -/
def write (bits offset : Nat) (value : BitVec bits) : Driver ε Unit :=
  .ask (.write bits offset value) fun _ => .done (.ok ())

/-- Say something to the log. -/
def log (level : Log.Level) (message : String) : Driver ε Unit :=
  .ask (.log level message) fun _ => .done (.ok ())

/-- Keep the bits of `keep`, set those of `set`, write the register back and
    deliver what was written. -/
def modify (bits offset : Nat) (keep set : BitVec bits) : Driver ε (BitVec bits) := do
  let old ← read bits offset
  let new := (old &&& keep) ||| set
  write bits offset new
  pure new

/-- Set some bits of a register and deliver what was written. -/
def setBits (bits offset : Nat) (set : BitVec bits) : Driver ε (BitVec bits) := do
  let old ← read bits offset
  let new := old ||| set
  write bits offset new
  pure new

/-- Clear some bits of a register and deliver what was written. -/
def clearBits (bits offset : Nat) (clear : BitVec bits) : Driver ε (BitVec bits) := do
  let old ← read bits offset
  let new := old &&& ~~~clear
  write bits offset new
  pure new

/-- Whether an access makes sense in a window at `base`: its offset is a
    multiple of its width in bytes and its address exists. -/
def Operation.isAligned (base : Nat) : Operation → Bool
  | .read bits offset => offset % (bits / 8) == 0 && base + offset < UInt64.size
  | .write bits offset _ => offset % (bits / 8) == 0 && base + offset < UInt64.size
  | .log _ _ => true

/-- The same driver on a window at `base`, stopped by a failed assertion at the
    first access that makes no sense there. -/
def aligned {α : Type} (base : Nat) (p : Driver ε α) : Driver ε α :=
  p.guarded (Operation.isAligned base)

end Bus

/-- Something that answers reads and takes writes, with a state of its own. -/
structure Device (σ : Type) where
  read : (bits offset : Nat) → σ → BitVec bits × σ
  write : (bits offset : Nat) → BitVec bits → σ → σ

/-- A device as the surroundings of a driver. Log records pass it by. -/
def Device.machine {σ : Type} (d : Device σ) : Machine Bus.interface σ
  | .read bits offset, s => d.read bits offset s
  | .write bits offset value, s => ((), d.write bits offset value s)
  | .log _ _, s => ((), s)

end BoardSupport
