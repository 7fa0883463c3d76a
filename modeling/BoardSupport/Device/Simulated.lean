import BoardSupport.Device.RegisterFile
import BoardSupport.Flash.Registers
import BoardSupport.I2c.Registers

/-!
# Simulated Devices

Register maps that react the way two controllers of the board do.

A simulated device stores what is written and answers what is stored, like a
register map. It can also be told beforehand what the next reads of a register
answer: such scripted answers are used up first and leave the stored word
alone. On top of that, a device may react.

The I2C reaction keeps count of a transmit FIFO: a write to the data register
fills it by one or, if it is full, raises the overflow interrupt; clearing the
FIFO empties it and drops the request at once. Acknowledging drops every
interrupt, whatever is written. Enable and disable change the mask, and only
some bits of the transfer size stay. The controller's registers have sixteen
bits: it reacts to no higher bit of what is written, and a register it changes
itself holds no higher bit afterwards.

The flash reaction has bytes queued for the driver. From the start of a
transfer on, its pointer register shows how many of them are ready, and its
status register that the transfer is done.

## Main definitions

* `Device.Simulated`: Registers, scripted answers and a reaction.
* `Device.I2cModel`, `Device.FlashModel`: The two reactions.
* `Device.simulated`: A simulated device as a device.
-/

namespace BoardSupport

namespace Device

/-- How an I2C controller reacts: the depth of its FIFO, the bits its transfer
    counter has, its defects, and how full its FIFO is. -/
structure I2cModel where
  fifoDepth : Nat
  transferMask : BitVec 16
  /-- Clearing the FIFO never ends. -/
  clearSticks : Bool
  /-- Sources cannot be masked. -/
  maskBroken : Bool
  /-- Interrupts that come up with every byte written. -/
  noise : BitVec 16
  fill : Nat

/-- How a flash controller reacts: the bytes it has for the driver, the fill
    level it shows while transmitting, whether it ever finishes, and the
    direction of the last transfer. -/
structure FlashModel where
  queued : List UInt8
  transmitLevel : BitVec 64
  /-- Transfers never end. -/
  stuck : Bool
  running : Nat

/-- How a device reacts to accesses beyond storing words. -/
inductive Reaction where
  | none
  | i2c (model : I2cModel)
  | flash (model : FlashModel)

/-- Registers with answers laid out for coming reads, and a reaction. -/
structure Simulated where
  registers : RegisterMap
  scripts : Std.TreeMap Nat (List (BitVec 64))
  reaction : Reaction

/-- What a register of the I2C controller holds. -/
def I2cModel.held (registers : RegisterMap) (offset : Nat) : BitVec 16 :=
  (registers.peek offset).setWidth 16

/-- The I2C controller changes one of its registers. -/
def I2cModel.change (registers : RegisterMap) (offset : Nat) (value : BitVec 16) : RegisterMap :=
  registers.poke offset (value.setWidth 64)

/-- A register just changed holds the value, and no other is affected. -/
theorem I2cModel.held_change (registers : RegisterMap) (offset other : Nat) (value : BitVec 16) :
    held (change registers offset value) other =
      if other = offset then value else held registers other := by
  simp only [held, change, RegisterMap.peek_poke]
  split
  · exact BitVec.setWidth_setWidth_of_le value (by decide)
  · rfl

/-- The I2C reaction to `value` having been stored at `offset`. -/
def I2cModel.afterWrite (m : I2cModel) (registers : RegisterMap) (offset : Nat)
    (value : BitVec 16) : I2cModel × RegisterMap :=
  if offset = I2c.Offset.control then
    if I2c.Control.clrfifo.isSet value && !m.clearSticks then
      ({ m with fill := 0 }, change registers offset (I2c.Control.clrfifo.put 0 value))
    else
      (m, registers)
  else if offset = I2c.Offset.interruptStatus then
    (m, change registers offset 0)
  else if offset = I2c.Offset.interruptEnable then
    (m, change registers I2c.Offset.interruptMask
      (held registers I2c.Offset.interruptMask &&& ~~~value))
  else if offset = I2c.Offset.interruptDisable then
    if m.maskBroken then
      (m, registers)
    else
      (m, change registers I2c.Offset.interruptMask
        (held registers I2c.Offset.interruptMask ||| value))
  else if offset = I2c.Offset.data then
    let pending := held registers I2c.Offset.interruptStatus ||| m.noise
    if m.fill = m.fifoDepth then
      (m, change registers I2c.Offset.interruptStatus (I2c.Interrupts.txOvf.put 1 pending))
    else
      ({ m with fill := m.fill + 1 }, change registers I2c.Offset.interruptStatus pending)
  else if offset = I2c.Offset.transferSize then
    (m, change registers offset (value &&& m.transferMask))
  else
    (m, registers)

/-- What the flash controller answers to a read, if not the stored word. -/
def FlashModel.answer? (m : FlashModel) (offset : Nat) : Option (BitVec 64 × FlashModel) :=
  if offset = Flash.Offset.fifoData then
    match m.queued with
    | [] => some (0xFF, m)
    | b :: rest => some (b.toBitVec.setWidth 64, { m with queued := rest })
  else if offset = Flash.Offset.fifoPointer then
    if m.running = 1 then
      some (BitVec.ofNat 64 (m.queued.take 8).length, m)
    else if m.running = 2 then
      some (m.transmitLevel, m)
    else
      none
  else
    none

/-- The flash reaction to `word` having been stored at `offset`: starting a
    transfer sets it running and, unless it is stuck, finishes it at once. -/
def FlashModel.afterWrite (m : FlashModel) (registers : RegisterMap) (offset : Nat)
    (word : BitVec 64) : FlashModel × RegisterMap :=
  if offset = Flash.Offset.transfer && Flash.Transfer.go.isSet word then
    let running := Flash.Transfer.mode.get word
    let status : BitVec 64 := if running = 1 then 5 else 1
    ({ m with running := running },
      if m.stuck then registers else registers.poke Flash.Offset.interruptStatus status)
  else
    (m, registers)

namespace Simulated

/-- Store a word as if it had always been there. -/
def preset (d : Simulated) (offset : Nat) (word : BitVec 64) : Simulated :=
  { d with registers := d.registers.poke offset word }

/-- Lay out answers for coming reads of a register, behind those already laid
    out. -/
def script (d : Simulated) (offset : Nat) (answers : List (BitVec 64)) : Simulated :=
  { d with scripts := d.scripts.insert offset (d.scripts.getD offset [] ++ answers) }

/-- Queue bytes for the driver of a flash controller. -/
def queue (d : Simulated) (bytes : List UInt8) : Simulated :=
  match d.reaction with
  | .flash m => { d with reaction := .flash { m with queued := m.queued ++ bytes } }
  | _ => d

/-- The next answer the device gives at an offset, before it is cut to the
    width of the access. -/
def answer (d : Simulated) (offset : Nat) : BitVec 64 × Simulated :=
  match d.scripts.getD offset [] with
  | word :: rest => (word, { d with scripts := d.scripts.insert offset rest })
  | [] =>
    match d.reaction with
    | .flash m =>
      match m.answer? offset with
      | some (word, m) => (word, { d with reaction := .flash m })
      | none => (d.registers.peek offset, d)
    | _ => (d.registers.peek offset, d)

/-- Store a word and react to it. -/
def accept (d : Simulated) (offset : Nat) (word : BitVec 64) : Simulated :=
  let registers := d.registers.poke offset word
  match d.reaction with
  | .none => { d with registers := registers }
  | .i2c m =>
    let (m, registers) := m.afterWrite registers offset (word.setWidth 16)
    { d with registers := registers, reaction := .i2c m }
  | .flash m =>
    let (m, registers) := m.afterWrite registers offset word
    { d with registers := registers, reaction := .flash m }

end Simulated

/-- Reads are cut to the width of the access, writes are extended with
    zeros. -/
def simulated : Device Simulated where
  read bits offset d :=
    let (word, d) := d.answer offset
    (word.setWidth bits, d)
  write _ offset value d := d.accept offset (value.setWidth 64)

end Device

end BoardSupport
