import BoardSupport.Firmware.Guid
import BoardSupport.Firmware.Status
import BoardSupport.Log
import BoardSupport.Program

/-!
# Firmware Variables

Named byte strings that outlive a reboot, as their users see them and as the
firmware provides them.

A user reads a variable into a buffer and is told its length; a variable that
is missing is no failure. A length can be more than the buffer holds, so a
user that trusts it has to check. Writing replaces the whole value.

The firmware's own services answer with a status, and a size that means the
length of the value or, if the buffer was too small, the length it would need.
One set of operations is carried out in terms of the other: success gives the
value, a missing variable gives nothing, and any other status is a failure. A
firmware that claims success with more bytes than the buffer has broken its
contract, and the assertion that catches it stops the program.

## Main definitions

* `Variables.Operation`: Reading and writing variables, and a log.
* `Variables.Error`: Why a variable could not be read or written.
* `Services.Operation`: What the firmware offers.
* `Services.provide`: Variables provided by the firmware's services.
-/

namespace BoardSupport

/-- The name of a variable within a vendor's names. -/
structure VariableId where
  vendor : Guid
  name : String
  deriving DecidableEq, Repr

namespace Variables

/-- Why a variable could not be read or written. -/
inductive Error where
  | bufferTooSmall (needed : Nat)
  | firmware (status : Status)
  deriving DecidableEq, Repr

namespace Error

/-- The text of a failure. -/
def message : Error → String
  | bufferTooSmall needed => s!"variable needs a {needed} byte buffer"
  | firmware status => s!"firmware returned {status.name}"

/-- The status that stands for a failure. -/
def status : Error → Status
  | bufferTooSmall _ => Status.bufferTooSmall
  | firmware status => status

end Error

/-- What a read delivers: the claimed length of the value, and the buffer as
    the read left it. -/
structure Content (capacity : Nat) where
  length : Nat
  buffer : Vector UInt8 capacity
  deriving DecidableEq, Repr

/-- What a user of variables may ask. -/
inductive Operation where
  | read (id : VariableId) (capacity : Nat)
  | write (id : VariableId) (attributes : UInt32) (data : List UInt8)
  | log (level : Log.Level) (message : String)

namespace Operation

/-- A read answers with the contents, or nothing if the variable is missing, or
    a failure; a write succeeds or fails. -/
@[reducible] def Answer : Operation → Type
  | read _ capacity => Except Error (Option (Content capacity))
  | write _ _ _ => Except Error Unit
  | log _ _ => Unit

end Operation

/-- Variables to read and write, and a log. -/
@[reducible] def interface : Interface :=
  ⟨Operation, Operation.Answer⟩

end Variables

namespace Services

/-- What the firmware answers when asked for a variable. -/
structure Reply (capacity : Nat) where
  status : Status
  size : Nat
  buffer : Vector UInt8 capacity
  deriving DecidableEq, Repr

/-- What the firmware offers. -/
inductive Operation where
  | getVariable (id : VariableId) (capacity : Nat)
  | setVariable (id : VariableId) (attributes : UInt32) (data : List UInt8)
  | log (level : Log.Level) (message : String)

namespace Operation

/-- Both services answer with a status. -/
@[reducible] def Answer : Operation → Type
  | getVariable _ capacity => Reply capacity
  | setVariable _ _ _ => Status
  | log _ _ => Unit

end Operation

/-- The firmware's services, and a log. -/
@[reducible] def interface : Interface :=
  ⟨Operation, Operation.Answer⟩

variable {ε : Type}

/-- What a reply means to a user of variables. A claim of success with more
    bytes than the buffer holds is a failed assertion. -/
def Reply.content {capacity : Nat} (r : Reply capacity) :
    Program interface ε (Except Variables.Error (Option (Variables.Content capacity))) :=
  if r.status = Status.success then
    if r.size ≤ capacity then pure (.ok (some ⟨r.size, r.buffer⟩)) else Program.fault
  else if r.status = Status.notFound then
    pure (.ok none)
  else if r.status = Status.bufferTooSmall then
    pure (.error (.bufferTooSmall r.size))
  else
    pure (.error (.firmware r.status))

/-- What a status means to a writer of variables. -/
def written (status : Status) : Except Variables.Error Unit :=
  if status = Status.success then .ok () else .error (.firmware status)

/-- One operation on variables, carried out by the firmware's services. -/
def provide : (operation : Variables.Operation) → Program interface ε operation.Answer
  | .read id capacity => .ask (.getVariable id capacity) fun reply => Reply.content reply
  | .write id attributes data =>
    .ask (.setVariable id attributes data) fun status => .done (.ok (written status))
  | .log level message => .ask (.log level message) fun _ => .done (.ok ())

end Services

end BoardSupport
