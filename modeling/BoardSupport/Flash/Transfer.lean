import BoardSupport.Flash.Error
import BoardSupport.Flash.Registers

/-!
# Descriptions of a Transfer

What to write to the transfer register for each kind of transfer.

A transfer on a register of the flash part has a command and no address; one
on its memory has a command and up to four address bytes. Each kind has one
preset. Before a preset is merged into the register, the fields any preset can
set are cleared; the idle level of the input line and the reserved bits stay
as they are.

## Main definitions

* `Flash.Transfer.cleared`: The register without its transfer fields.
* `Flash.Transfer.registerRead`, `Flash.Transfer.registerWrite`: Presets
  without an address.
* `Flash.Transfer.flashRead`, `Flash.Transfer.flashWrite`,
  `Flash.Transfer.flashErase`: Presets with an address.
-/

namespace BoardSupport

namespace Flash

namespace Transfer

/-- The bits that presets can set, and the other bits of their fields. -/
def fieldMask : BitVec 32 := 0x3F7F

/-- The register with its transfer fields cleared. -/
def cleared (word : BitVec 32) : BitVec 32 :=
  word &&& ~~~fieldMask

/-- A command whose response is read while the command is sent. -/
def registerRead : BitVec 32 :=
  mode.put TransferMode.both.bits <| withCommand.put 1 <| trigger.put FifoTrigger.oneByte.bits 0

/-- A command with data; with `fullDuplex` the data lines run both ways. -/
def registerWrite (fullDuplex : Bool) : BitVec 32 :=
  let command : BitVec 32 := withCommand.put 1 <| trigger.put FifoTrigger.oneByte.bits 0
  if fullDuplex then mode.put TransferMode.both.bits command else command

/-- A command with an address, and no data yet. -/
def flash (count : Nat) : Except Error (BitVec 32) :=
  if count > 4 then
    .error (.addressBytes count)
  else
    .ok <| withCommand.put 1 <| trigger.put FifoTrigger.eightBytes.bits <| addressBytes.put count 0

/-- A read of flash memory. -/
def flashRead (count : Nat) : Except Error (BitVec 32) :=
  (flash count).map (mode.put TransferMode.receive.bits)

/-- A write to flash memory. -/
def flashWrite (count : Nat) : Except Error (BitVec 32) :=
  (flash count).map (mode.put TransferMode.transmit.bits)

/-- An erasure of flash memory, which moves no data. -/
def flashErase (count : Nat) : Except Error (BitVec 32) :=
  (flash count).map (trigger.put FifoTrigger.oneByte.bits)

/-- What the register is left with before the first transfer: a read that moves
    no data yet. -/
def idle (count : Nat) : Except Error (BitVec 32) :=
  (flashRead count).map fun preset =>
    trigger.put FifoTrigger.fourBytes.bits (mode.put TransferMode.none.bits preset)

end Transfer

end Flash

end BoardSupport
