import BoardSupport.Firmware.Variables

/-!
# Failures of the Platform Configuration

What can be wrong with a configuration, a request for a part of it, or the
variable that holds it; how it is told, and which firmware status it amounts
to.
-/

namespace BoardSupport

namespace Config

/-- The number of CPUs a configuration has a say in. -/
def maxCpus : Nat := 8

/-- Why an operation on the configuration failed. -/
inductive Error where
  | cpuOutOfRange (index : Nat)
  | invalidLength (expected actual : Nat)
  | invalidBoolean (index : Nat) (value : UInt8)
  | blockOutOfRange (offset width : Nat)
  | bufferTooSmall (needed : Nat)
  | malformedRequest
  | headerMismatch
  | store (cause : Variables.Error)
  deriving DecidableEq, Repr

namespace Error

/-- The name of the kind of a failure. -/
def kind : Error → String
  | cpuOutOfRange _ => "CpuOutOfRange"
  | invalidLength _ _ => "InvalidLength"
  | invalidBoolean _ _ => "InvalidBoolean"
  | blockOutOfRange _ _ => "BlockOutOfRange"
  | bufferTooSmall _ => "BufferTooSmall"
  | malformedRequest => "MalformedRequest"
  | headerMismatch => "HeaderMismatch"
  | store (.bufferTooSmall _) => "Store.BufferTooSmall"
  | store (.firmware _) => "Store.Firmware"

/-- The text of a failure. -/
def message : Error → String
  | cpuOutOfRange index => s!"CPU index {index} is out of range (max {maxCpus})"
  | invalidLength expected actual =>
    s!"expected {expected} bytes of configuration, got {actual}"
  | invalidBoolean index value =>
    s!"byte {index} holds {Hex.marked 2 value.toNat}, not a boolean"
  | blockOutOfRange offset width =>
    s!"block at offset {offset} width {width} leaves the configuration"
  | bufferTooSmall needed => s!"output buffer needs {needed} bytes"
  | malformedRequest => "request does not carry a valid OFFSET/WIDTH block"
  | headerMismatch => "request is not addressed to the platform configuration"
  | store cause => s!"variable store: {cause.message}"

/-- The status a failure amounts to: whatever is wrong with the input is an
    invalid parameter, and a failed store passes its own status on. -/
def status : Error → Status
  | headerMismatch => Status.notFound
  | bufferTooSmall _ => Status.bufferTooSmall
  | store cause => cause.status
  | cpuOutOfRange _ | invalidLength _ _ | invalidBoolean _ _ | blockOutOfRange _ _
  | malformedRequest => Status.invalidParameter

end Error

end Config

end BoardSupport
