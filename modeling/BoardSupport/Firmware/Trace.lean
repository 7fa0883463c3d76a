import BoardSupport.Firmware.Variables

/-!
# What Was Asked of the Variables

A recorded run of a program over variables as a list of calls and a list of
log records, each in order. The calls look the same whether the program asked
for variables or for the firmware's services.

## Main definitions

* `VariableCall`: One variable read or written.
* `Variables.calls`, `Services.calls`: The calls of a recorded run.
* `Variables.records`, `Services.records`: The log records of a recorded run.
* `Variables.isRead`, `Variables.isWrite`, `Variables.isStored`: Which call an
  event is.
-/

namespace BoardSupport

/-- One variable read into a buffer of some capacity, or written. -/
inductive VariableCall where
  | get (id : VariableId) (capacity : Nat)
  | set (id : VariableId) (attributes : UInt32) (data : List UInt8)
  deriving DecidableEq, Repr

namespace Variables

/-- The call an event is, unless it is a log record. -/
def call? (e : Event interface) : Option VariableCall :=
  match e.operation with
  | .read id capacity => some (.get id capacity)
  | .write id attributes data => some (.set id attributes data)
  | .log _ _ => none

/-- The log record an event is, unless it is a call. -/
def record? (e : Event interface) : Option (Log.Level × String) :=
  match e.operation with
  | .log level message => some (level, message)
  | _ => none

/-- The calls among some events, in order. -/
def calls (events : List (Event interface)) : List VariableCall :=
  events.filterMap call?

/-- The log records among some events, in order. -/
def records (events : List (Event interface)) : List (Log.Level × String) :=
  events.filterMap record?

/-- The event is a read. -/
def isRead (e : Event interface) : Bool :=
  match e.operation with
  | .read _ _ => true
  | _ => false

/-- The event is a write. -/
def isWrite (e : Event interface) : Bool :=
  match e.operation with
  | .write _ _ _ => true
  | _ => false

/-- The event is a write that succeeded. -/
def isStored : Event interface → Bool
  | ⟨.write _ _ _, .ok ()⟩ => true
  | _ => false

end Variables

namespace Services

/-- The call an operation is, unless it is a log record. -/
def Operation.call? : Operation → Option VariableCall
  | getVariable id capacity => some (.get id capacity)
  | setVariable id attributes data => some (.set id attributes data)
  | log _ _ => none

/-- The log record an operation is, unless it is a call. -/
def Operation.record? : Operation → Option (Log.Level × String)
  | log level message => some (level, message)
  | _ => none

/-- The calls among some events, in order. -/
def calls (events : List (Event interface)) : List VariableCall :=
  events.filterMap fun e => e.operation.call?

/-- The log records among some events, in order. -/
def records (events : List (Event interface)) : List (Log.Level × String) :=
  events.filterMap fun e => e.operation.record?

end Services

end BoardSupport
