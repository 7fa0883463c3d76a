import BoardSupport.Register.Field

/-!
# Registers of the Serial Line

Seven registers of 32 bits. The two FIFO registers carry a byte in their low
bits and, in their top bit, whether the FIFO is full or empty. The divisor
register holds one less than what the input clock is divided by.

## Main definitions

* `Serial.Offset`: Where each register lies in the window.
* `Serial.TransmitData`, `Serial.ReceiveData`, `Serial.TransmitControl`,
  `Serial.ReceiveControl`: The packed registers.
* `Serial.minDivisor`: The smallest divisor for a baud rate.
-/

namespace BoardSupport

namespace Serial

namespace Offset

/-- One end of the transmit FIFO. -/
def transmitData : Nat := 0x00
/-- One end of the receive FIFO. -/
def receiveData : Nat := 0x04
/-- Control of the transmitter. -/
def transmitControl : Nat := 0x08
/-- Control of the receiver. -/
def receiveControl : Nat := 0x0C
/-- Interrupts that are delivered. -/
def interruptEnable : Nat := 0x10
/-- Pending interrupts. -/
def interruptPending : Nat := 0x14
/-- Divisor of the input clock, less one. -/
def divisor : Nat := 0x18

end Offset

/-- Base of the first line's window on the board. -/
def base0 : Nat := 0x10010000

/-- Base of the second line's window on the board. -/
def base1 : Nat := 0x10011000

/-- The bytes each FIFO has room for. -/
def fifoDepth : Nat := 8

namespace TransmitData

open Register (flag number)

/-- The byte to send. -/
def data := number "data" 0 8
/-- The FIFO takes no byte. -/
def full := flag "full" 31

/-- One end of the transmit FIFO. -/
def layout : Register.Layout where
  name := "TxData"
  bits := 32
  fields := [data, number "reserved0" 8 23, full]

end TransmitData

namespace ReceiveData

open Register (flag number)

/-- The byte received. -/
def data := number "data" 0 8
/-- The FIFO has no byte. -/
def empty := flag "empty" 31

/-- One end of the receive FIFO. -/
def layout : Register.Layout where
  name := "RxData"
  bits := 32
  fields := [data, number "reserved0" 8 23, empty]

end ReceiveData

namespace TransmitControl

open Register (flag number)

/-- Enable the transmitter. -/
def txen := flag "txen" 0

/-- Control of the transmitter. -/
def layout : Register.Layout where
  name := "TxCtrl"
  bits := 32
  fields := [txen, flag "nstop" 1, number "reserved0" 2 14, number "txcnt" 16 3,
    number "reserved1" 19 13]

end TransmitControl

namespace ReceiveControl

open Register (flag number)

/-- Enable the receiver. -/
def rxen := flag "rxen" 0

/-- Control of the receiver. -/
def layout : Register.Layout where
  name := "RxCtrl"
  bits := 32
  fields := [rxen, number "reserved0" 1 15, number "rxcnt" 16 3, number "reserved1" 19 13]

end ReceiveControl

/-- The smallest divisor whose baud rate does not exceed the target, or the
    largest one the register holds if none is slow enough. A target of zero
    asks for nothing and gets zero. -/
def minDivisor (input target : UInt64) : Nat :=
  if target = 0 then
    0
  else
    min ((input.toNat + target.toNat - 1) / target.toNat - 1) (UInt32.size - 1)

end Serial

end BoardSupport
