import BoardSupport.Config.CpuSet
import BoardSupport.Config.Header

/-!
# Keeping the Configuration

The configuration lives in a firmware variable, and a store keeps a copy of
what it last read or wrote there. Every operation that ends well delivers the
configuration that becomes the current one; an operation that fails leaves the
current one alone.

Loading creates the variable with every CPU enabled if it is missing or cannot
be read, and reads it back. A variable that can be read but holds no image is
reported instead: someone's configuration is in it, and it is not thrown away.

A request to change a block goes by what the variable holds at that moment,
not by the copy.

## Main definitions

* `Config.Store`: The current configuration.
* `Config.load`, `Config.save`, `Config.route`: Operations on the variable.
* `Config.Store.extract`: Answer a request from the current configuration.
-/

namespace BoardSupport

namespace Config

/-- A program over firmware variables. -/
abbrev Task (α : Type) :=
  Program Variables.interface Error α

/-- Say something about the variable to the log. -/
def say (level : Log.Level) (message : String) : Task Unit :=
  .ask (.log level s!"{variableName} {message}") fun _ => .done (.ok ())

/-- The configuration in what a read delivered. A claimed length beyond the
    buffer is that of no image. -/
def decode (content : Variables.Content maxCpus) : Except Error CpuSet :=
  if content.length ≤ maxCpus then
    CpuSet.ofBytes (content.buffer.toList.take content.length)
  else
    .error (.invalidLength maxCpus content.length)

/-- Read the variable; nothing if it is missing. -/
def read : Task (Option CpuSet) :=
  .ask (.read variableId maxCpus) fun
    | .error cause => Program.fail (.store cause)
    | .ok none => pure none
    | .ok (some content) => Program.ofExcept ((decode content).map some)

/-- Write a configuration to the variable. -/
def write (config : CpuSet) : Task Unit :=
  .ask (.write variableId attributes config.toBytes) fun
    | .error cause => Program.fail (.store cause)
    | .ok () => pure ()

/-- Create the variable with every CPU enabled and read it back. -/
def create : Task CpuSet := do
  write CpuSet.allEnabled
  match ← read with
  | some config => pure config
  | none => Program.fail (.store (.firmware Status.notFound))

/-- The configuration in the variable, which is created if it is missing or
    cannot be read. -/
def load : Task CpuSet := do
  match ← read.attempt with
  | .ok (some config) =>
    say .debug s!"loaded: {config.display}"
    pure config
  | .ok none =>
    say .info "not found; writing defaults"
    create
  | .error (.store cause) =>
    say .warn s!"unreadable ({cause.message}); writing defaults"
    create
  | .error cause =>
    say .warn s!"is invalid: {cause.message}"
    Program.fail cause

/-- Write a configuration to the variable. -/
def save (config : CpuSet) : Task CpuSet := do
  write config
  say .debug s!"saved: {config.display}"
  pure config

/-- Replace a block of what the variable holds, every CPU being enabled if it
    is missing. -/
def route (request : String) (data : List UInt8) : Task CpuSet := do
  Program.ofExcept (Header.check request)
  let block ← Program.ofExcept (Block.parse request)
  let stored ← read
  let config ← Program.ofExcept ((stored.getD CpuSet.allEnabled).apply block data)
  write config
  say .debug s!"routed {block.display}: {config.display}"
  pure config

/-- The configuration last read or written. -/
structure Store where
  current : CpuSet
  deriving DecidableEq, Repr

namespace Store

/-- Before anything has been read, every CPU counts as enabled. -/
def new : Store :=
  ⟨CpuSet.allEnabled⟩

/-- A configuration that was delivered becomes the current one. -/
def after (s : Store) : Outcome Error CpuSet → Store
  | .ok config => ⟨config⟩
  | .error _ => s
  | .fault => s

/-- The block of the current configuration a request asks for, or all of it
    without a request, for a buffer with room for `room` bytes. -/
def extract (s : Store) (request : Option String) (room : Nat) : Except Error (List UInt8) :=
  match request with
  | none => s.current.extract Block.whole room
  | some request => do
    Header.check request
    let block ← Block.parse request
    s.current.extract block room

end Store

end Config

end BoardSupport
