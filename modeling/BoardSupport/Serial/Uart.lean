import BoardSupport.Bus
import BoardSupport.Serial.Registers

/-!
# The Serial Line

Bytes go out through a FIFO that must not be written while it is full, so each
byte waits for room. Nothing bounds that wait on the hardware; here it carries
a patience, the number of times it asks before it is called stalled. A driver
with more patience does the same, longer.

## Main definitions

* `Serial.init`: Program the divisor and enable both directions.
* `Serial.putByte`: Send one byte once there is room.
* `Serial.getByte`: Take one byte if there is one.
* `Serial.writeString`, `Serial.writeChar`: Send a text or a character.
-/

namespace BoardSupport

namespace Serial

/-- A wait for room in the transmit FIFO ran out of patience. -/
structure Stalled where
  asked : Nat
  deriving DecidableEq, Repr

variable {ε : Type}

/-- Program the divisor for a baud rate, mask the interrupts and enable both
    directions. An input clock of zero leaves the divisor alone. -/
def init (input baud : UInt64) : Driver ε Unit := do
  Program.when (input != 0) do
    Bus.write 32 Offset.divisor (BitVec.ofNat 32 (minDivisor input baud))
  Bus.write 32 Offset.interruptEnable 0
  Bus.write 32 Offset.transmitControl (TransmitControl.txen.put 1 0)
  Bus.write 32 Offset.receiveControl (ReceiveControl.rxen.put 1 0)

/-- The divisor in force. -/
def divisor : Driver ε (BitVec 32) :=
  Bus.read 32 Offset.divisor

/-- Whether there is no room to send a byte. -/
def transmitFull : Driver ε Bool := do
  let word ← Bus.read 32 Offset.transmitData
  pure (TransmitData.full.isSet word)

/-- Send one byte once there is room for it. -/
def putByte (patience : Nat) (b : UInt8) : Driver Stalled Unit := do
  match ← Program.poll patience transmitFull (!·) with
  | some _ => Bus.write 32 Offset.transmitData (TransmitData.data.put b.toNat 0)
  | none => Program.fail ⟨patience⟩

/-- Take one byte from the receive FIFO if there is one. -/
def getByte : Driver ε (Option UInt8) := do
  let word ← Bus.read 32 Offset.receiveData
  pure (if ReceiveData.empty.isSet word then none
    else some (UInt8.ofNat (ReceiveData.data.get word)))

/-- Send bytes in order. -/
def writeBytes (patience : Nat) (bytes : List UInt8) : Driver Stalled Unit :=
  Program.forEach (putByte patience) bytes

/-- Send a text as UTF-8. -/
def writeString (patience : Nat) (text : String) : Driver Stalled Unit :=
  writeBytes patience text.toUTF8.data.toList

/-- Send a character as a text of its own. -/
def writeChar (patience : Nat) (c : Char) : Driver Stalled Unit :=
  writeString patience (String.singleton c)

end Serial

end BoardSupport
