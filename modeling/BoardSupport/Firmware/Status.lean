/-!
# Firmware Status Codes

Every firmware service answers with a 64-bit code. Zero is success, small
numbers are warnings, and errors have the top bit set. Most codes have a
name; any other is written as its number.

## Main definitions

* `Status`: A code.
* `Status.ofError`: The code of a numbered error.
* `Status.name`: How a code is written.
-/

namespace BoardSupport

/-- What a firmware service answers. -/
structure Status where
  code : UInt64
  deriving DecidableEq, Repr

namespace Status

/-- The code of the error of a number. -/
def ofError (number : UInt64) : Status :=
  ⟨0x8000000000000000 ||| number⟩

/-- The service did what it was asked. -/
def success : Status := ⟨0⟩
/-- An argument makes no sense. -/
def invalidParameter : Status := ofError 2
/-- The caller's buffer is too small. -/
def bufferTooSmall : Status := ofError 5
/-- What was asked for does not exist. -/
def notFound : Status := ofError 14
/-- What was to be started runs already. -/
def alreadyStarted : Status := ofError 20

/-- The names of the warnings, from code one on. -/
def warningNames : List String :=
  ["WARN_UNKNOWN_GLYPH", "WARN_DELETE_FAILURE", "WARN_WRITE_FAILURE", "WARN_BUFFER_TOO_SMALL",
    "WARN_STALE_DATA", "WARN_FILE_SYSTEM", "WARN_RESET_REQUIRED"]

/-- The names of the errors, from error one on. -/
def errorNames : List String :=
  ["LOAD_ERROR", "INVALID_PARAMETER", "UNSUPPORTED", "BAD_BUFFER_SIZE", "BUFFER_TOO_SMALL",
    "NOT_READY", "DEVICE_ERROR", "WRITE_PROTECTED", "OUT_OF_RESOURCES", "VOLUME_CORRUPTED",
    "VOLUME_FULL", "NO_MEDIA", "MEDIA_CHANGED", "NOT_FOUND", "ACCESS_DENIED", "NO_RESPONSE",
    "NO_MAPPING", "TIMEOUT", "NOT_STARTED", "ALREADY_STARTED", "ABORTED", "ICMP_ERROR",
    "TFTP_ERROR", "PROTOCOL_ERROR", "INCOMPATIBLE_VERSION", "SECURITY_VIOLATION", "CRC_ERROR",
    "END_OF_MEDIA"]

/-- The names of the errors that follow a gap, from error 31 on. -/
def lateErrorNames : List String :=
  ["END_OF_FILE", "INVALID_LANGUAGE", "COMPROMISED_DATA", "IP_ADDRESS_CONFLICT", "HTTP_ERROR"]

/-- Every code that has a name, with that name. -/
def named : List (Status × String) :=
  (success, "SUCCESS") ::
    (warningNames.zipIdx 1).map (fun (name, i) => (⟨UInt64.ofNat i⟩, name)) ++
    (errorNames.zipIdx 1).map (fun (name, i) => (ofError (UInt64.ofNat i), name)) ++
    (lateErrorNames.zipIdx 31).map (fun (name, i) => (ofError (UInt64.ofNat i), name))

/-- How a code is written: by its name, or else as a number. -/
def name (s : Status) : String :=
  match named.lookup s with
  | some name => name
  | none => s!"Status({s.code.toNat})"

end Status

end BoardSupport
