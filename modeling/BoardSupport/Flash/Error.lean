import BoardSupport.Text.Hex

/-!
# Failures of the SPI Flash Controller

What can go wrong with a transfer, and how it is told.
-/

namespace BoardSupport

namespace Flash

/-- Why an operation on the controller failed. -/
inductive Error where
  | timeout (mask : BitVec 32) (spins : Nat)
  | clockDivider (divider : Nat)
  | addressBytes (count : Nat)
  | fifoOverflow (length : Nat)
  | transferTooLong (length : Nat)
  | fifoLevel (level spins : Nat)
  deriving DecidableEq, Repr

/-- The name of the kind of a failure. -/
def Error.kind : Error → String
  | timeout _ _ => "Timeout"
  | clockDivider _ => "ClockDivider"
  | addressBytes _ => "AddressBytes"
  | fifoOverflow _ => "FifoOverflow"
  | transferTooLong _ => "TransferTooLong"
  | fifoLevel _ _ => "FifoLevel"

/-- The text of a failure. -/
def Error.message : Error → String
  | timeout mask spins => s!"no interrupt in mask {Hex.marked 1 mask.toNat} after {spins} polls"
  | clockDivider divider => s!"clock divider {divider} exceeds 0x7FF"
  | addressBytes count => s!"{count} address bytes do not fit TRAN_CSR"
  | fifoOverflow length => s!"{length} data bytes plus opcode overflow the FIFO"
  | transferTooLong length => s!"transfer of {length} bytes is too long"
  | fifoLevel level spins => s!"FIFO did not reach {level} bytes after {spins} polls"

end Flash

end BoardSupport
