import BoardSupport.Bus
import BoardSupport.Text.Hex
import BoardSupport.Timer.Hart

/-!
# Timer and Software Interrupts

A hart's timer has expired once the clock has reached the hart's deadline. To
disarm it, the deadline is put at the end of time. Arming adds to the clock
and stops at that end instead of wrapping around, so a long wait never becomes
a short one.

Whether a timer has expired takes two reads. The clock is read before the
deadline.

## Main definitions

* `Clint.armAfter`: Let a hart's timer expire some ticks from now.
* `Clint.timerExpired`: Whether the clock has reached a hart's deadline.
* `Clint.raiseInterrupt`, `Clint.clearInterrupt`: Software interrupts.
-/

namespace BoardSupport

namespace Clint

variable {ε : Type}

/-- The latest possible deadline. -/
def endOfTime : BitVec 64 := BitVec.allOnes 64

/-- The time now. -/
def clock : Driver ε (BitVec 64) :=
  Bus.read 64 Timer.clockOffset

/-- When a hart's timer expires. -/
def deadline (h : Hart) : Driver ε (BitVec 64) :=
  Bus.read 64 h.deadlineOffset

/-- Let a hart's timer expire at a time. -/
def setDeadline (h : Hart) (time : BitVec 64) : Driver ε Unit := do
  Bus.log .trace s!"{h.display}: mtimecmp <- {Hex.marked 1 time.toNat}"
  Bus.write 64 h.deadlineOffset time

/-- A time some ticks later, or the end of time if it is nearer. -/
def later (time ticks : BitVec 64) : BitVec 64 :=
  if time.toNat + ticks.toNat < UInt64.size then time + ticks else endOfTime

/-- Let a hart's timer expire `ticks` from now, and deliver the deadline. -/
def armAfter (h : Hart) (ticks : BitVec 64) : Driver ε (BitVec 64) := do
  let now ← clock
  setDeadline h (later now ticks)
  pure (later now ticks)

/-- Let a hart's timer expire at the end of time. -/
def disarm (h : Hart) : Driver ε Unit :=
  setDeadline h endOfTime

/-- Whether the clock has reached a hart's deadline. -/
def timerExpired (h : Hart) : Driver ε Bool := do
  let now ← clock
  let due ← deadline h
  pure (due ≤ now)

/-- Interrupt a hart. -/
def raiseInterrupt (h : Hart) : Driver ε Unit := do
  Bus.log .trace s!"{h.display}: msip <- 1"
  Bus.write 32 h.interruptOffset 1

/-- Take back the interrupt of a hart. -/
def clearInterrupt (h : Hart) : Driver ε Unit := do
  Bus.log .trace s!"{h.display}: msip <- 0"
  Bus.write 32 h.interruptOffset 0

/-- Whether a hart is interrupted. -/
def interruptPending (h : Hart) : Driver ε Bool := do
  let word ← Bus.read 32 h.interruptOffset
  pure (word &&& 1 != 0)

end Clint

end BoardSupport
