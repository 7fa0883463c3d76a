import BoardSupport.Bus
import BoardSupport.I2c.Divisors
import BoardSupport.I2c.Install
import BoardSupport.I2c.Registers

/-!
# Bringing Up an I2C Controller

The controller does not say how deep its FIFO is or how far its transfer
counter counts. Both are found by experiment: bytes are written until the
transmit FIFO overflows, and ones are written to the transfer size register to
see which of them stay. Only then, and only if a transfer one byte longer than
the FIFO can be counted, is the controller fit for use.

Interrupts are acknowledged by writing back exactly what was read, so one that
comes up in between is not lost. Every wait is bounded by the controller's
spin limit.

## Main definitions

* `I2c.Controller`: A controller in master mode.
* `I2c.Controller.reset`: Master mode, everything masked, nothing pending.
* `I2c.Controller.start`: Reset and the two experiments.
* `I2c.Controller.setBusFrequency`: Program the bus clock.
-/

namespace BoardSupport

namespace I2c

/-- A controller with the depth found for its FIFO, zero before it is
    started. -/
structure Controller where
  install : Install
  spinLimit : Nat
  fifoSize : Nat
  deriving DecidableEq, Repr

/-- How often a wait asks unless told otherwise. -/
def defaultSpinLimit : Nat := 1000000

/-- Writes to the data register before giving up on an overflow, less one. -/
def maxFifoProbe : Nat := 32

namespace Controller

/-- A controller that has not been started. -/
def new (install : Install) (spinLimit : Nat) : Controller :=
  ⟨install, spinLimit, 0⟩

/-- Say something about the controller to the log. -/
def say {ε : Type} (c : Controller) (level : Log.Level) (message : String) : Driver ε Unit :=
  Bus.log level s!"{c.install.display}: {message}"

/-- The control register. -/
def control {ε : Type} : Driver ε (BitVec 16) :=
  Bus.read 16 Offset.control

/-- Read the pending interrupts and acknowledge exactly those. -/
def acknowledge {ε : Type} : Driver ε (BitVec 16) := do
  let pending ← Bus.read 16 Offset.interruptStatus
  Bus.write 16 Offset.interruptStatus pending
  pure pending

/-- Ask the controller to empty its FIFO and wait until it has. -/
def clearFifo (c : Controller) : Driver Error Unit := do
  let cr ← control
  Bus.write 16 Offset.control (Control.clrfifo.put 1 cr)
  match ← Program.poll c.spinLimit control fun cr => !Control.clrfifo.isSet cr with
  | some _ => pure ()
  | none =>
    c.say .error "FIFO clear never completed; is the input clock running?"
    Program.fail (.timeout .fifoClear)

/-- The control register of a master that acknowledges, and nothing else. -/
def masterMode : BitVec 16 :=
  Control.acken.put 1 (Control.ms.put 1 0)

/-- Put the controller in master mode with every interrupt source masked and
    nothing pending. -/
def reset (c : Controller) : Driver Error Unit := do
  Bus.write 16 Offset.control masterMode
  c.clearFifo
  Bus.write 16 Offset.timeout defaultTimeout
  Bus.write 16 Offset.interruptEnable 0
  Bus.write 16 Offset.interruptDisable allInterrupts
  let mask ← Bus.read 16 Offset.interruptMask
  if mask = allInterrupts then
    let _ ← acknowledge
    pure ()
  else
    c.say .error s!"failed to disable all interrupt sources (IMR {Hex.marked 4 mask.toNat})"
    Program.fail (.interruptsNotMasked mask)

/-- Write to the transmit FIFO until it overflows, at most `tries` times after
    `accepted` writes that it took. -/
def fillFifo (c : Controller) (accepted : Nat) : (tries : Nat) → Driver Error Nat
  | 0 => Program.fail (.fifoProbe accepted)
  | tries + 1 => do
    Bus.write 16 Offset.data 0
    let set ← acknowledge
    if !Interrupts.isEmpty (Interrupts.withoutOverflow set) then
      c.say .error s!"unexpected interrupt {Hex.marked 4 set.toNat} while probing the FIFO"
      Program.fail (.unexpectedInterrupt set)
    else if Interrupts.txOvf.isSet set then
      pure accepted
    else
      c.fillFifo (accepted + 1) tries

/-- Find the depth of the transmit FIFO: the number of bytes it takes before it
    overflows. -/
def probeFifo (c : Controller) : Driver Error Nat := do
  let cr ← control
  Bus.write 16 Offset.control (Control.rw.put 0 cr)
  let _ ← acknowledge
  c.clearFifo
  c.fillFifo 0 (maxFifoProbe + 1)

/-- Find the longest transfer that can be counted: the ones that stay in the
    transfer size register. -/
def probeMaxTransfer (c : Controller) : Driver Error Nat := do
  let cr ← control
  Bus.write 16 Offset.control (Control.rw.put 1 (Control.hold.put 0 cr))
  Bus.write 16 Offset.transferSize 0
  let _ ← acknowledge
  c.clearFifo
  Bus.write 16 Offset.transferSize 0xFFFF
  let size ← Bus.read 16 Offset.transferSize
  pure size.toNat

/-- A failure, and the controller as it left it. -/
structure Failure where
  cause : Error
  controller : Controller
  deriving DecidableEq, Repr

/-- Check the input clock, reset the controller and find its FIFO depth and
    longest transfer. The depth is kept from the moment it is known, even if
    a later step fails. -/
def start (c : Controller) : Driver Failure Controller := do
  let clock := c.install.inputClock
  if clock = 0 ∨ Divisors.slowest.clock clock = 0 then
    c.say .error s!"input clock ({clock.toNat} Hz) is unreasonably low"
    Program.fail ⟨.inputClockTooLow clock.toNat, c⟩
  else
    c.reset.mapError fun cause => ⟨cause, c⟩
    let probe := c.probeFifo.onError fun cause =>
      c.say .error s!"unable to probe FIFO size: {cause.message}"
    let fifoSize ← probe.mapError fun cause => ⟨cause, c⟩
    let found := { c with fifoSize := fifoSize }
    c.say .info s!"FIFO size is {fifoSize} bytes"
    let maxTransfer ← c.probeMaxTransfer.mapError fun cause => ⟨cause, found⟩
    c.say .info s!"max transfer size is {maxTransfer} bytes"
    if maxTransfer < fifoSize + 1 then
      c.say .error s!"max transfer size {maxTransfer} cannot cover FIFO size {fifoSize}"
      Program.fail ⟨.transferSizeTooSmall maxTransfer fifoSize, found⟩
    else
      c.reset.mapError fun cause => ⟨cause, found⟩
      pure found

/-- The divisors in the control register. -/
def busDivisors {ε : Type} : Driver ε Divisors := do
  let cr ← control
  pure ((Divisors.ofPair? (Control.divA.get cr) (Control.divB.get cr)).getD Divisors.slowest)

/-- Program the bus clock for a request and deliver the clock it gives. Only
    the divisors in the control register change; a divisor that did not fit
    its field would be a failed assertion. -/
def setBusFrequency (c : Controller) (requested : UInt32) : Driver Error Nat := do
  let choice := Program.ofExcept (Divisors.forFrequency c.install.inputClock requested)
  let (d, actual) ← choice.onError fun cause => c.say .error cause.message
  let cr ← control
  let cr ← Program.expect (Control.divA.put? d.a cr)
  let cr ← Program.expect (Control.divB.put? d.b cr)
  Bus.write 16 Offset.control cr
  c.say .debug s!"bus clock {actual} Hz for {requested.toNat} Hz (a={d.a}, b={d.b})"
  pure actual

/-- Whether a transfer occupies the bus. -/
def busActive {ε : Type} : Driver ε Bool := do
  let sr ← Bus.read 16 Offset.status
  pure (BusStatus.ba.isSet sr)

/-- Wait until no transfer occupies the bus. -/
def waitBusInactive (c : Controller) : Driver Error Unit := do
  match ← Program.poll c.spinLimit busActive (!·) with
  | some _ => pure ()
  | none =>
    c.say .error "time-out while waiting for the bus to be inactive"
    Program.fail (.timeout .busInactive)

/-- The pending interrupts, without acknowledging them. -/
def pendingInterrupts {ε : Type} (c : Controller) : Driver ε (BitVec 16) := do
  let set ← Bus.read 16 Offset.interruptStatus
  c.say .trace s!"ISR {Hex.marked 4 set.toNat}"
  pure set

end Controller

end I2c

end BoardSupport
