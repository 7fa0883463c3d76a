import BoardSupport.Bus
import BoardSupport.Bytes
import BoardSupport.Flash.Transfer

/-!
# Driving an SPI Flash Part

Transfers through a FIFO of eight bytes.

Every transfer starts in the same way: the transfer register is read, its
transfer fields are replaced, the FIFO is emptied, and command, address and
whatever data fit are queued. Then the transfer is started and its end is
waited for. Data that do not fit into the FIFO move in bursts of at most eight
bytes, each burst behind a wait for the fill level that says the FIFO is ready
for exactly that burst.

A read of flash always moves at least eight bytes, because the controller
announces shorter ones unreliably; what was not asked for is dropped. When a
read fails half-way, the bytes received until then are part of the failure.

## Main definitions

* `Flash.setup`: Bring the controller into register mode.
* `Flash.readRegister`, `Flash.writeRegister`: Transfers without an address.
* `Flash.readFlash`, `Flash.writeFlash`, `Flash.erase`: Transfers on memory.
* `Flash.waitFor`, `Flash.waitFifoLevel`: Bounded waits.
-/

namespace BoardSupport

namespace Flash

/-- How often a wait asks unless told otherwise. -/
def defaultSpinLimit : Nat := 1000000

/-- The clock divider programmed at set-up. -/
def defaultClockDivider : Nat := 3

/-- Say something about the controller to the log. -/
def say {ε : Type} (level : Log.Level) (message : String) : Driver ε Unit :=
  Bus.log level s!"spifmc: {message}"

/-- Bring the controller into register mode for a part with `count` address
    bytes: no memory-mapped reads, soft reset with the default clock divider,
    chip select left to the hardware, an idle transfer in the register. -/
def setup (count : Nat) : Driver Error Unit := do
  let template ← Program.ofExcept (Transfer.idle count)
  Bus.write 32 Offset.memoryMapped 0
  let ctrl ← Bus.read 32 Offset.control
  Bus.write 32 Offset.control (Control.srst.put 1 (Control.sckDiv.put defaultClockDivider ctrl))
  Bus.write 32 Offset.chipEnable 0
  Bus.write 32 Offset.transfer template
  say .debug s!"ready, {count} address bytes, sck_div {defaultClockDivider}"

/-- The clock divider in force. -/
def clockDivider {ε : Type} : Driver ε Nat := do
  let ctrl ← Bus.read 32 Offset.control
  pure (Control.sckDiv.get ctrl)

/-- Replace the clock divider and keep the frame format. -/
def setClockDivider (divider : Nat) : Driver Error Unit := do
  if divider > maxClockDivider then
    Program.fail (.clockDivider divider)
  else
    let ctrl ← Bus.read 32 Offset.control
    Bus.write 32 Offset.control (Control.sckDiv.put divider ctrl)
    say .trace s!"sck_div <- {divider}"

/-- Merge a preset into the transfer register's contents with their transfer
    fields cleared, and empty the FIFO. Delivers what to start the transfer
    with. -/
def prepare {ε : Type} (preset : BitVec 32) : Driver ε (BitVec 32) := do
  let current ← Bus.read 32 Offset.transfer
  Bus.write 32 Offset.fifoPointer 0
  pure (Transfer.cleared current ||| preset)

/-- How full the FIFO is now. -/
def readFifoLevel {ε : Type} : Driver ε Nat := do
  let pointer ← Bus.read 32 Offset.fifoPointer
  pure (fifoLevel pointer)

/-- Put a byte into the FIFO. -/
def pushByte {ε : Type} (b : UInt8) : Driver ε Unit :=
  Bus.write 8 Offset.fifoData b.toBitVec

/-- Put bytes into the FIFO, in order. -/
def pushFifo {ε : Type} (bytes : List UInt8) : Driver ε Unit :=
  Program.forEach pushByte bytes

/-- Take bytes out of the FIFO and put them behind those taken before, which
    come latest first. -/
def popOnto {ε : Type} (taken : List UInt8) : (count : Nat) → Driver ε (List UInt8)
  | 0 => pure taken
  | count + 1 => do
    let b ← Bus.read 8 Offset.fifoData
    popOnto (UInt8.ofBitVec b :: taken) count

/-- Take bytes out of the FIFO. -/
def popFifo {ε : Type} (count : Nat) : Driver ε (List UInt8) := do
  let taken ← popOnto [] count
  pure taken.reverse

/-- Program the number of data bytes of the next transfer. -/
def setTransferLength (length : Nat) : Driver Error Unit := do
  if length ≥ UInt32.size then
    Program.fail (.transferTooLong length)
  else
    Bus.write 32 Offset.transferLength (BitVec.ofNat 32 length)

/-- Clear the interrupt status and start a transfer. -/
def go {ε : Type} (transfer : BitVec 32) : Driver ε Unit := do
  Bus.write 32 Offset.interruptStatus 0
  Bus.write 32 Offset.transfer (Transfer.go.put 1 transfer)

/-- Wait until an interrupt of `mask` has come up, asking at most `spins`
    times. Delivers the status that showed it. -/
def waitFor (mask : BitVec 32) (spins : Nat) : Driver Error (BitVec 32) := do
  match ← Program.poll spins (Bus.read 32 Offset.interruptStatus)
      fun status => Interrupts.intersects status mask with
  | some status => pure status
  | none =>
    say .warn s!"no interrupt {Hex.marked 1 mask.toNat} after {spins} polls"
    Program.fail (.timeout mask spins)

/-- Wait until the FIFO holds exactly `level` bytes, asking at most `spins`
    times. -/
def waitFifoLevel (level spins : Nat) : Driver Error Unit := do
  match ← Program.poll spins readFifoLevel (· == level) with
  | some _ => pure ()
  | none =>
    say .warn s!"FIFO never reached {level} bytes after {spins} polls"
    Program.fail (.fifoLevel level spins)

/-- Refuse data that do not fit the FIFO beside a command byte. -/
def checkFifo (length : Nat) : Except Error Unit :=
  if length ≥ fifoDepth then .error (.fifoOverflow length) else .ok ()

/-- Wait for the end of a transfer and empty the FIFO. -/
def finish (spins : Nat) : Driver Error Unit := do
  let _ ← waitFor Interrupts.done spins
  Bus.write 32 Offset.fifoPointer 0

/-- Send a command and deliver its response of `length` bytes. -/
def readRegister (opcode : UInt8) (length spins : Nat) : Driver Error (List UInt8) := do
  Program.ofExcept (checkFifo length)
  let transfer ← prepare Transfer.registerRead
  Bus.write 32 Offset.option keepPadding
  pushByte opcode
  pushFifo (List.replicate length 0)
  setTransferLength length
  go transfer
  let _ ← waitFor Interrupts.done spins
  let response ← popFifo length
  Bus.write 32 Offset.fifoPointer 0
  say .trace s!"read register {Hex.marked 2 opcode.toNat}: {Hex.byteList response}"
  pure response

/-- Send a command with data. Full-duplex writes also program the transfer
    length. -/
def writeRegister (opcode : UInt8) (data : List UInt8) (fullDuplex : Bool) (spins : Nat) :
    Driver Error Unit := do
  Program.ofExcept (checkFifo data.length)
  let transfer ← prepare (Transfer.registerWrite fullDuplex)
  Program.when fullDuplex (setTransferLength data.length)
  pushByte opcode
  pushFifo data
  go transfer
  finish spins
  say .trace s!"wrote register {Hex.marked 2 opcode.toNat}: {Hex.byteList data}"

/-- Prepare a transfer and queue its command and the low bytes of its address,
    highest first. -/
def command {ε : Type} (preset : BitVec 32) (opcode : UInt8) (address : UInt32) (count : Nat) :
    Driver ε (BitVec 32) := do
  let transfer ← prepare preset
  pushByte opcode
  pushFifo (Bytes.bigEndian count address.toNat)
  pure transfer

/-- A read that failed, with the bytes it had received. -/
structure ReadFailure where
  cause : Error
  received : List UInt8
  deriving DecidableEq, Repr

/-- The sizes of the bursts in which `length` bytes move: full FIFOs, and what
    is left. -/
def burstSizes (length : Nat) : List Nat :=
  List.replicate (length / fifoDepth) fifoDepth ++
    if length % fifoDepth = 0 then [] else [length % fifoDepth]

/-- Receive bursts one after another. What has been received comes latest
    first. -/
def receive (spins : Nat) (received : List UInt8) : (bursts : List Nat) →
    Driver ReadFailure (List UInt8)
  | [] => pure received
  | size :: rest => do
    (waitFifoLevel size spins).mapError fun cause => ⟨cause, received⟩
    let received ← popOnto received size
    receive spins received rest

/-- Queue the command of a read, start it, and wait for its first bytes. -/
def startRead (opcode : UInt8) (address : UInt32) (count total spins : Nat) :
    Driver Error Unit := do
  let preset ← Program.ofExcept (Transfer.flashRead count)
  let transfer ← command preset opcode address count
  setTransferLength total
  go transfer
  let _ ← waitFor Interrupts.readable spins

/-- What is kept of the bytes received, which come latest first. -/
def kept (length : Nat) (received : List UInt8) : List UInt8 :=
  received.reverse.take length

/-- Read `length` bytes of flash from an address on. -/
def readFlash (opcode : UInt8) (address : UInt32) (count length spins : Nat) :
    Driver ReadFailure (List UInt8) := do
  (startRead opcode address count (max fifoDepth length) spins).mapError
    fun cause => ⟨cause, []⟩
  let received ← (receive spins [] (burstSizes (max fifoDepth length))).mapError
    fun failure => ⟨failure.cause, kept length failure.received⟩
  (finish spins).mapError fun cause => ⟨cause, kept length received⟩
  say .trace s!"read {length} bytes at {Hex.marked 1 address.toNat}"
  pure (kept length received)

/-- Send one burst of data once the FIFO is empty. -/
def sendBurst (spins : Nat) (burst : List UInt8) : Driver Error Unit := do
  waitFifoLevel 0 spins
  pushFifo burst

/-- Write data to flash from an address on. Command and address leave the FIFO
    before the first data enter it. -/
def writeFlash (opcode : UInt8) (address : UInt32) (count : Nat) (data : List UInt8)
    (spins : Nat) : Driver Error Unit := do
  let preset ← Program.ofExcept (Transfer.flashWrite count)
  let transfer ← command preset opcode address count
  setTransferLength data.length
  go transfer
  waitFifoLevel 0 spins
  Bus.write 32 Offset.fifoPointer 0
  Program.forEach (sendBurst spins) (Bytes.chunks fifoDepth data)
  finish spins
  say .trace s!"wrote {data.length} bytes at {Hex.marked 1 address.toNat}"

/-- Erase the sector or block that holds an address. -/
def erase (opcode : UInt8) (address : UInt32) (count spins : Nat) : Driver Error Unit := do
  let preset ← Program.ofExcept (Transfer.flashErase count)
  let transfer ← command preset opcode address count
  go transfer
  finish spins
  say .debug s!"erased {Hex.marked 1 address.toNat} with {Hex.marked 2 opcode.toNat}"

end Flash

end BoardSupport
