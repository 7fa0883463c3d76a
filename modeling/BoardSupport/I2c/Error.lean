import BoardSupport.Text.Hex

/-!
# Failures of the I2C Controller

What can go wrong while a controller is brought up or its bus clock is set,
and how it is told.
-/

namespace BoardSupport

namespace I2c

/-- What a bounded wait was waiting for. -/
inductive Wait where
  | fifoClear
  | busInactive
  deriving DecidableEq, Repr

/-- The words for what was waited for. -/
def Wait.name : Wait → String
  | fifoClear => "FIFO clear"
  | busInactive => "bus inactive"

/-- Why an operation on the controller failed. -/
inductive Error where
  | inputClockTooLow (clock : Nat)
  | unsupportedFrequency
  | frequencyTooLow (requested slowest : Nat)
  | interruptsNotMasked (mask : BitVec 16)
  | unexpectedInterrupt (set : BitVec 16)
  | fifoProbe (writes : Nat)
  | transferSizeTooSmall (maxTransfer fifoSize : Nat)
  | timeout (wait : Wait)
  deriving DecidableEq, Repr

/-- The name of the kind of a failure. -/
def Error.kind : Error → String
  | inputClockTooLow _ => "InputClockTooLow"
  | unsupportedFrequency => "UnsupportedFrequency"
  | frequencyTooLow _ _ => "FrequencyTooLow"
  | interruptsNotMasked _ => "InterruptsNotMasked"
  | unexpectedInterrupt _ => "UnexpectedInterrupt"
  | fifoProbe _ => "FifoProbe"
  | transferSizeTooSmall _ _ => "TransferSizeTooSmall"
  | timeout _ => "Timeout"

/-- The text of a failure. -/
def Error.message : Error → String
  | inputClockTooLow clock => s!"input clock of {clock} Hz is too low to drive the bus"
  | unsupportedFrequency => "a bus frequency of 0 Hz is not supported"
  | frequencyTooLow requested slowest =>
    s!"requested {requested} Hz but the slowest possible bus clock is {slowest} Hz"
  | interruptsNotMasked mask =>
    s!"interrupt sources could not be disabled (IMR {Hex.marked 4 mask.toNat})"
  | unexpectedInterrupt set => s!"unexpected interrupt status {Hex.marked 4 set.toNat}"
  | fifoProbe writes => s!"transmit FIFO did not overflow after {writes} writes"
  | transferSizeTooSmall maxTransfer fifoSize =>
    s!"max transfer size {maxTransfer} cannot cover FIFO size {fifoSize} + 1"
  | timeout wait => s!"timed out waiting for {wait.name}"

end I2c

end BoardSupport
