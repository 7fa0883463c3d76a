import BoardSupport.Firmware.Variables

/-!
# Simulated Firmware

Variables kept in memory, by a store or by firmware services that can be told
to misbehave.

Each read and each write first looks whether something has been laid out for
it: a failure, a success that is a lie about the length, a write that gets lost
or stores something else. When nothing is laid out, or what is laid out says
so, the operation is carried out faithfully. A value longer than the buffer is
not delivered, and the length it needs is told instead.

The same variables are offered in two ways: as variables to their users, and
as the firmware's services.

## Main definitions

* `Firmware.Simulated`: Variables and what is laid out for coming operations.
* `Firmware.variableStore`: The simulation as variables.
* `Firmware.services`: The simulation as the firmware's services.
-/

namespace BoardSupport

namespace Firmware

/-- A variable's value. -/
structure Stored where
  attributes : UInt32
  data : List UInt8
  deriving DecidableEq, Repr

/-- How a read is answered. -/
inductive ReadRule where
  /-- Faithfully. -/
  | serve
  /-- With a status and, if given, a size. -/
  | fail (status : Status) (size : Option Nat)
  /-- With success and a length, whatever the variable holds. -/
  | claim (length : Nat)
  deriving DecidableEq, Repr

/-- How a write is carried out. -/
inductive WriteRule where
  /-- Faithfully. -/
  | serve
  /-- Not at all, with a status. -/
  | fail (status : Status)
  /-- Not at all, with success. -/
  | drop
  /-- With other data, and success. -/
  | replace (data : List UInt8)
  deriving DecidableEq, Repr

/-- Variables, and rules for the operations to come. -/
structure Simulated where
  stored : List (VariableId × Stored)
  reads : List ReadRule
  writes : List WriteRule
  deriving DecidableEq, Repr

namespace Simulated

/-- No variables, and everything is faithful. -/
def empty : Simulated :=
  ⟨[], [], []⟩

/-- The variable of a name, if it is stored. -/
def find? (f : Simulated) (id : VariableId) : Option Stored :=
  f.stored.lookup id

/-- Store a variable, in place of the one of that name. -/
def put (f : Simulated) (id : VariableId) (value : Stored) : Simulated :=
  { f with stored := (id, value) :: f.stored.filter fun entry => entry.1 ≠ id }

/-- Drop all variables. -/
def clear (f : Simulated) : Simulated :=
  { f with stored := [] }

/-- Lay out rules for operations to come, behind those already laid out. -/
def script (f : Simulated) (reads : List ReadRule) (writes : List WriteRule) : Simulated :=
  { f with reads := f.reads ++ reads, writes := f.writes ++ writes }

/-- Every variable, in the order of vendors and then names as they are
    written. -/
def listing (f : Simulated) : List (VariableId × Stored) :=
  f.stored.mergeSort fun x y =>
    let (vx, vy) := (x.1.vendor.display, y.1.vendor.display)
    vx < vy || (vx == vy && x.1.name ≤ y.1.name)

/-- The rule for the next read. -/
def nextRead (f : Simulated) : ReadRule × Simulated :=
  match f.reads with
  | [] => (.serve, f)
  | rule :: rest => (rule, { f with reads := rest })

/-- The rule for the next write. -/
def nextWrite (f : Simulated) : WriteRule × Simulated :=
  match f.writes with
  | [] => (.serve, f)
  | rule :: rest => (rule, { f with writes := rest })

/-- A buffer nothing has been put into. -/
def blank (capacity : Nat) : Vector UInt8 capacity :=
  Vector.replicate capacity 0

/-- A blank buffer with data put into its beginning. -/
def filled (capacity : Nat) (data : List UInt8) : Vector UInt8 capacity :=
  Vector.ofFn fun i => data.getD i 0

/-- Carry out the next write and deliver its status. -/
def write (f : Simulated) (id : VariableId) (attributes : UInt32) (data : List UInt8) :
    Status × Simulated :=
  match f.nextWrite with
  | (.serve, f) => (Status.success, f.put id ⟨attributes, data⟩)
  | (.fail status, f) => (status, f)
  | (.drop, f) => (Status.success, f)
  | (.replace data, f) => (Status.success, f.put id ⟨attributes, data⟩)

end Simulated

/-- The simulation as variables. A status laid out for an operation is a
    failure, even if it is that of success. -/
def variableStore : Machine Variables.interface Simulated
  | .read id capacity, f =>
    match f.nextRead with
    | (.serve, f) =>
      match f.find? id with
      | none => (.ok none, f)
      | some value =>
        if value.data.length ≤ capacity then
          (.ok (some ⟨value.data.length, Simulated.filled capacity value.data⟩), f)
        else
          (.error (.bufferTooSmall value.data.length), f)
    | (.fail status _, f) => (.error (.firmware status), f)
    | (.claim length, f) => (.ok (some ⟨length, Simulated.blank capacity⟩), f)
  | .write id attributes data, f =>
    match f.nextWrite with
    | (.fail status, f) => (.error (.firmware status), f)
    | _ =>
      let (_, f) := f.write id attributes data
      (.ok (), f)
  | .log _ _, f => ((), f)

/-- The simulation as the firmware's services. -/
def services : Machine Services.interface Simulated
  | .getVariable id capacity, f =>
    match f.nextRead with
    | (.serve, f) =>
      match f.find? id with
      | none => (⟨Status.notFound, 0, Simulated.blank capacity⟩, f)
      | some value =>
        if value.data.length ≤ capacity then
          (⟨Status.success, value.data.length, Simulated.filled capacity value.data⟩, f)
        else
          (⟨Status.bufferTooSmall, value.data.length, Simulated.blank capacity⟩, f)
    | (.fail status size, f) =>
      (⟨status, size.getD capacity, Simulated.blank capacity⟩, f)
    | (.claim length, f) => (⟨Status.success, length, Simulated.blank capacity⟩, f)
  | .setVariable id attributes data, f => f.write id attributes data
  | .log _ _, f => ((), f)

end Firmware

end BoardSupport
