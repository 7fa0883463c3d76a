import BoardSupport.Register.Field

/-!
# Registers of the I2C Controller

The controller has ten registers of 16 bits, each on its own 32-bit boundary.
Three of them are packed: control, bus status, and the interrupt set that the
status, mask, enable and disable registers share.

## Main definitions

* `I2c.Offset`: Where each register lies in the window.
* `I2c.Control`, `I2c.BusStatus`, `I2c.Interrupts`: The packed registers.
* `I2c.allInterrupts`: Every interrupt source at once.
-/

namespace BoardSupport

namespace I2c

namespace Offset

/-- Bus role, divisors and FIFO. -/
def control : Nat := 0x00
/-- State of the bus. -/
def status : Nat := 0x04
/-- Address of the device to talk to. -/
def address : Nat := 0x08
/-- Transmit and receive data. -/
def data : Nat := 0x0C
/-- Interrupt status; writing a one acknowledges. -/
def interruptStatus : Nat := 0x10
/-- Number of bytes of a transfer. -/
def transferSize : Nat := 0x14
/-- Time-out of a transfer. -/
def timeout : Nat := 0x1C
/-- Interrupt mask; a one is a masked source. -/
def interruptMask : Nat := 0x20
/-- Interrupt enable: writing a one unmasks. -/
def interruptEnable : Nat := 0x24
/-- Interrupt disable: writing a one masks. -/
def interruptDisable : Nat := 0x28
/-- The last register of the window. -/
def last : Nat := interruptDisable

end Offset

/-- Every interrupt source at once. -/
def allInterrupts : BitVec 16 := 0x02FF

/-- The time-out register's value after a reset. -/
def defaultTimeout : BitVec 16 := 0x1F

namespace Control

open Register (flag number)

/-- Receive rather than transmit. -/
def rw := flag "rw" 0
/-- Act as bus master. -/
def ms := flag "ms" 1
/-- Acknowledge received bytes. -/
def acken := flag "acken" 3
/-- Hold the bus after a transfer. -/
def hold := flag "hold" 4
/-- Empty the FIFO; the controller drops the bit when it is done. -/
def clrfifo := flag "clrfifo" 6
/-- First divisor of the input clock, less one. -/
def divA := number "div_a" 8 6
/-- Second divisor of the input clock, less one. -/
def divB := number "div_b" 14 2

/-- Bus role, divisors and FIFO. -/
def layout : Register.Layout where
  name := "Control"
  bits := 16
  fields := [rw, ms, flag "nea" 2, acken, hold, flag "slvmon" 5, clrfifo,
    number "reserved0" 7 1, divA, divB]

/-- The bits of both divisors. -/
def divisorMask : BitVec 16 := divA.mask 16 ||| divB.mask 16

end Control

namespace BusStatus

open Register (flag number)

/-- A transfer occupies the bus. -/
def ba := flag "ba" 8

/-- State of the bus. -/
def layout : Register.Layout where
  name := "BusStatus"
  bits := 16
  fields := [number "reserved0" 0 3, flag "rxrw" 3, number "reserved1" 4 1, flag "rxdv" 5,
    flag "txdv" 6, flag "rxovf" 7, ba, number "reserved2" 9 7]

end BusStatus

namespace Interrupts

open Register (flag number)

/-- A byte was written to a full transmit FIFO. -/
def txOvf := flag "tx_ovf" 6

/-- A set of interrupts. -/
def layout : Register.Layout where
  name := "Interrupts"
  bits := 16
  fields := [flag "comp" 0, flag "data" 1, flag "nack" 2, flag "to" 3, flag "slv_rdy" 4,
    flag "rx_ovf" 5, txOvf, flag "rx_unf" 7, number "reserved0" 8 1, flag "arb_lost" 9,
    number "reserved1" 10 6]

/-- The set without the transmit overflow. -/
def withoutOverflow (set : BitVec 16) : BitVec 16 :=
  txOvf.put 0 set

/-- Whether no interrupt is in the set. -/
def isEmpty (set : BitVec 16) : Bool :=
  set == 0

end Interrupts

end I2c

end BoardSupport
