import BoardSupport.Config.Store
import BoardSupport.Firmware.Trace

/-!
# Sessions

A client's calls on one store, one after another.

A session is a store and the variables it keeps the configuration in. Each
call is carried out on the variables, and what it delivers becomes the current
configuration. What came of a call is kept as a turn: everything the variables
were asked for it, with their answers, and how it ended. Extracting a block
asks the variables nothing, since the current configuration answers it.

A turn can store something in the variable and yet fail, and then nothing
tells the store about it. Whether the variable holds what such a turn left
there is a question about the turns alone: nothing has been delivered since.

## Main definitions

* `Config.Call`: What a client can ask of a store.
* `Config.Turn`: What came of one call.
* `Config.Session.call`, `Config.Session.calls`: Carrying out calls.
* `Config.hasStray`: A write got through that no delivered configuration
  accounts for.
-/

namespace BoardSupport

namespace Config

/-- What a client can ask of a store. -/
inductive Call where
  | load
  | save (config : CpuSet)
  | route (request : String) (data : List UInt8)
  | extract (request : Option String) (room : Nat)
  deriving DecidableEq, Repr

/-- How a call ended: with a configuration, or with bytes of the current
    one. -/
inductive Reply where
  | config (outcome : Outcome Error CpuSet)
  | block (bytes : Except Error (List UInt8))

/-- What came of one call: what the variables were asked for it, and how it
    ended. -/
structure Turn where
  asked : List (Event Variables.interface)
  reply : Reply

namespace Turn

/-- The call delivered a configuration, which is the current one from then
    on. -/
def delivered (t : Turn) : Bool :=
  match t.reply with
  | .config (.ok _) => true
  | _ => false

/-- The reads of the turn, in order. -/
def reads (t : Turn) : List (Event Variables.interface) :=
  t.asked.filter Variables.isRead

/-- The writes of the turn, in order. -/
def writes (t : Turn) : List (Event Variables.interface) :=
  t.asked.filter Variables.isWrite

/-- Some write of the turn got through. -/
def stored (t : Turn) : Bool :=
  t.asked.any Variables.isStored

end Turn

/-- Since a configuration was last delivered, some write got through. -/
def hasStray (turns : List Turn) : Bool :=
  (turns.reverse.takeWhile fun t => !t.delivered).any Turn.stored

/-- A store and the variables it keeps the configuration in. -/
structure Session (σ : Type) where
  store : Store
  backing : σ

namespace Session

variable {σ : Type}

/-- Carry out a task on the variables, and keep what it delivers. -/
def perform (machine : Machine Variables.interface σ) (s : Session σ) (task : Task CpuSet) :
    Turn × Session σ :=
  let (outcome, r) := task.run machine.recorded (.start s.backing)
  (⟨r.events, .config outcome⟩, ⟨s.store.after outcome, r.state⟩)

/-- Carry out one call. -/
def call (machine : Machine Variables.interface σ) (s : Session σ) : Call → Turn × Session σ
  | .load => s.perform machine load
  | .save config => s.perform machine (save config)
  | .route request data => s.perform machine (route request data)
  | .extract request room => (⟨[], .block (s.store.extract request room)⟩, s)

/-- Carry out calls one after another. -/
def calls (machine : Machine Variables.interface σ) (s : Session σ) :
    List Call → List Turn × Session σ
  | [] => ([], s)
  | c :: rest =>
    let (turn, s) := s.call machine c
    let (turns, s) := s.calls machine rest
    (turn :: turns, s)

end Session

end Config

end BoardSupport
