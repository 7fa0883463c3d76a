import BoardSupport.Region

/-!
# Harts and Their Timer Registers

The board has five hardware threads. The first is the monitor core; the other
four are application cores. Each has two registers in the timer's window: a
deadline of 64 bits, and a word of 32 bits whose lowest bit is its software
interrupt. One 64-bit clock is shared by all.

## Main definitions

* `Hart`: One of the five.
* `Timer.region`: The timer's window.
* `Hart.deadlineOffset`, `Hart.interruptOffset`: Where a hart's registers lie.
-/

namespace BoardSupport

/-- The number of harts on the board. -/
def hartCount : Nat := 5

/-- A hardware thread. -/
structure Hart where
  index : Fin hartCount
  deriving DecidableEq, Repr

namespace Timer

/-- Base of the timer's window. -/
def base : UInt64 := 0x02000000

/-- Size of the timer's window. -/
def size : UInt64 := 0x10000

/-- The timer's window. -/
def region : Region :=
  ⟨⟨base⟩, size⟩

/-- Where the interrupt of the first hart lies in the window. -/
def interruptOffset : Nat := 0

/-- How far the interrupts of two harts in a row lie apart. -/
def interruptStride : Nat := 4

/-- Where the deadline of the first hart lies in the window. -/
def deadlineOffset : Nat := 0x4000

/-- How far the deadlines of two harts in a row lie apart. -/
def deadlineStride : Nat := 8

/-- Where the clock lies in the window. -/
def clockOffset : Nat := 0xBFF8

/-- The address an offset into the window names. -/
def address (offset : Nat) : PhysicalAddress :=
  ⟨base + UInt64.ofNat offset⟩

end Timer

namespace Hart

/-- The monitor core. -/
def monitor : Hart := ⟨⟨0, by decide⟩⟩

/-- The hart of a number, if there is one. -/
def ofNat? (id : Nat) : Option Hart :=
  if h : id < hartCount then some ⟨⟨id, h⟩⟩ else none

/-- All harts, the monitor core first. -/
def all : List Hart :=
  (List.finRange hartCount).map Hart.mk

/-- Where a hart's deadline lies in the window. -/
def deadlineOffset (h : Hart) : Nat :=
  Timer.deadlineOffset + h.index * Timer.deadlineStride

/-- Where a hart's interrupt lies in the window. -/
def interruptOffset (h : Hart) : Nat :=
  Timer.interruptOffset + h.index * Timer.interruptStride

/-- The address of a hart's deadline. -/
def deadlineAddress (h : Hart) : PhysicalAddress :=
  Timer.address h.deadlineOffset

/-- The address of a hart's interrupt. -/
def interruptAddress (h : Hart) : PhysicalAddress :=
  Timer.address h.interruptOffset

/-- How log records call a hart. -/
def display (h : Hart) : String :=
  s!"hart{h.index.val}"

/-- The hart with its kind named. -/
def debug (h : Hart) : String :=
  s!"HartId({h.index.val})"

end Hart

end BoardSupport
