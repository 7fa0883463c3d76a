import BoardSupport.Bytes
import BoardSupport.Config.Block

/-!
# The Platform Configuration

Which of the platform's eight CPUs are brought up. The configuration has an
image of eight bytes, one per CPU, each zero or one; nothing else is an image
of a configuration. A block of the image can be read or replaced on its own,
and a replacement that is refused changes nothing.

## Main definitions

* `Config.CpuSet`: The CPUs that are enabled.
* `Config.CpuSet.toBytes`, `Config.CpuSet.ofBytes`: The image, written and
  read.
* `Config.CpuSet.extract`, `Config.CpuSet.apply`: A block of the image, read
  and replaced.
-/

namespace BoardSupport

namespace Config

/-- The CPUs that are enabled. -/
structure CpuSet where
  enabled : Vector Bool maxCpus
  deriving DecidableEq, Repr

namespace CpuSet

/-- Every CPU is enabled. This is also what a configuration starts as. -/
def allEnabled : CpuSet :=
  ⟨Vector.replicate maxCpus true⟩

/-- No CPU is enabled. -/
def allDisabled : CpuSet :=
  ⟨Vector.replicate maxCpus false⟩

/-- The CPUs whose bits are set in a number. -/
def ofMask (mask : Nat) : CpuSet :=
  ⟨Vector.ofFn fun cpu => mask.testBit cpu⟩

/-- Whether a CPU is enabled, if there is such a CPU. -/
def isEnabled? (c : CpuSet) (cpu : Nat) : Option Bool :=
  c.enabled[cpu]?

/-- Enable or disable a CPU. -/
def setEnabled (c : CpuSet) (cpu : Nat) (on : Bool) : Except Error CpuSet :=
  if h : cpu < maxCpus then
    .ok ⟨c.enabled.set cpu on h⟩
  else
    .error (.cpuOutOfRange cpu)

/-- The numbers of the enabled CPUs, ascending. -/
def cpus (c : CpuSet) : List Nat :=
  (List.range maxCpus).filter fun cpu => c.enabled[cpu]?.getD false

/-- How many CPUs are enabled. -/
def count (c : CpuSet) : Nat :=
  c.cpus.length

/-- The byte that stands for an enabled or disabled CPU. -/
def toByte (on : Bool) : UInt8 :=
  if on then 1 else 0

/-- What a byte of an image says, unless it belongs to no image. -/
def ofByte? (b : UInt8) : Option Bool :=
  if b = 0 then some false else if b = 1 then some true else none

/-- The image of the configuration. -/
def toBytes (c : CpuSet) : List UInt8 :=
  c.enabled.toList.map toByte

/-- Let bytes of an image decide about the CPUs from `index` on. The first byte
    that belongs to no image is refused. -/
def decideFrom (enabled : Vector Bool maxCpus) (index : Nat) :
    (data : List UInt8) → index + data.length ≤ maxCpus → Except Error (Vector Bool maxCpus)
  | [], _ => .ok enabled
  | b :: rest, fits =>
    match ofByte? b with
    | none => .error (.invalidBoolean index b)
    | some on =>
      decideFrom (enabled.set index on (by simp only [List.length_cons] at fits; omega))
        (index + 1) rest (by simp only [List.length_cons] at fits; omega)

/-- The configuration of an image. -/
def ofBytes (bytes : List UInt8) : Except Error CpuSet :=
  if fits : bytes.length = maxCpus then
    (decideFrom allDisabled.enabled 0 bytes (by omega)).map CpuSet.mk
  else
    .error (.invalidLength maxCpus bytes.length)

/-- A block of the image, for a buffer with room for `room` bytes. -/
def extract (c : CpuSet) (block : Block) (room : Nat) : Except Error (List UInt8) :=
  match block.within maxCpus with
  | .error cause => .error cause
  | .ok span =>
    if room < span.length then
      .error (.bufferTooSmall span.length)
    else
      .ok ((c.toBytes.drop span.start).take span.length)

/-- Replace a block of the image. -/
def apply (c : CpuSet) (block : Block) (data : List UInt8) : Except Error CpuSet :=
  match block.within maxCpus with
  | .error cause => .error cause
  | .ok span =>
    if fits : data.length = span.length then
      (decideFrom c.enabled span.start data (by
        have := span.start_le_stop
        have := span.stop_le_size
        simp only [Span.length] at fits
        omega)).map CpuSet.mk
    else
      .error (.invalidLength span.length data.length)

/-- The enabled CPUs by name, or `none`. -/
def display (c : CpuSet) : String :=
  if c.cpus.isEmpty then "none" else " ".intercalate (c.cpus.map fun cpu => s!"cpu{cpu}")

/-- The set with every CPU spelled out. -/
def debug (c : CpuSet) : String :=
  "PlatformConfigData \x7b cpu_enable: [" ++
    ", ".intercalate (c.enabled.toList.map toString) ++ "] \x7d"

end CpuSet

end Config

end BoardSupport
