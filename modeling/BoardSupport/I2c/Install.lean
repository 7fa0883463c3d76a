import BoardSupport.Address
import BoardSupport.Bytes

/-!
# Where an I2C Controller Is Installed

What the board says about one controller: the base of its registers and the
clock it is fed. The record is handed over in memory, so it has a fixed image:
the base in eight bytes and the clock in four, both little-endian, inside
sixteen bytes aligned to eight.

## Main definitions

* `I2c.Install`: Base and input clock of a controller.
* `I2c.Install.image`: The bytes of the record, without the padding.
-/

namespace BoardSupport

namespace I2c

/-- One controller on the board. -/
structure Install where
  base : PhysicalAddress
  inputClock : UInt32
  deriving DecidableEq, Repr

namespace Install

/-- The bytes a record takes up in memory, its padding included. -/
def imageSize : Nat := 16

/-- The alignment of a record in memory. -/
def imageAlignment : Nat := 8

/-- How log records call the controller. -/
def display (i : Install) : String :=
  s!"cadence-i2c@{i.base.display}"

/-- The record with its fields named, on one line. -/
def debug (i : Install) : String :=
  s!"CadenceI2cInstall \x7b mmio_base: {i.base.debug}, input_clock_hz: {i.inputClock.toNat} \x7d"

/-- The record with its fields named, one to a line. -/
def debugLines (i : Install) : String :=
  "\n".intercalate
    ["CadenceI2cInstall \x7b",
     s!"    mmio_base: {i.base.debug},",
     s!"    input_clock_hz: {i.inputClock.toNat},",
     "\x7d"]

/-- The bytes of the record up to its padding. -/
def image (i : Install) : List UInt8 :=
  Bytes.littleEndian 8 i.base.value.toNat ++ Bytes.littleEndian 4 i.inputClock.toNat

end Install

end I2c

end BoardSupport
