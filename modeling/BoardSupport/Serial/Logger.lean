import BoardSupport.Serial.Uart
import BoardSupport.Service

/-!
# Logging over the Serial Line

A logger writes the records its filter lets through, one line each. It can be
used on its own, or installed as the one logger of the whole system. The filter
of the system is then set to that of the logger, so a record passes two of them.

## Main definitions

* `Serial.Logger`: A filter in front of a serial line.
* `Serial.Logger.emit`: Write a record.
* `Serial.Logger.log`: Write a record if the filter lets it through.
* `Serial.Logger.service`: A logger as a service.
* `Serial.LogSystem`: A system with such a logger, or without one yet.
* `Serial.LogSystem.install`, `Serial.LogSystem.log`: What is done with it.
* `Serial.LogSystem.service`: The system as a service.
-/

namespace BoardSupport

namespace Serial

/-- A logger on a serial line. -/
structure Logger where
  filter : Log.Filter
  patience : Nat
  deriving DecidableEq, Repr

namespace Logger

/-- Whether the logger writes records of a level. -/
def enabled (l : Logger) (level : Log.Level) : Bool :=
  l.filter.admits level

/-- Write a record, whatever its level. -/
def emit (l : Logger) (r : Log.Record) : Driver Stalled Unit :=
  writeString l.patience (r.line ++ "\n")

/-- Write a record if its level is let through. -/
def log (l : Logger) (r : Log.Record) : Driver Stalled Unit :=
  if l.enabled r.level then l.emit r else pure ()

/-- What a client can ask of a logger. -/
inductive Call where
  | log (r : Log.Record)
  | emit (r : Log.Record)
  deriving DecidableEq, Repr

/-- The program behind a call. -/
def Call.program (l : Logger) : Call → Driver Stalled Unit
  | .log r => l.log r
  | .emit r => l.emit r

/-- A logger as a service. -/
def service (l : Logger) : Service Bus.interface Unit Call Stalled Unit :=
  ⟨fun _ call => call.program l, fun _ _ => ()⟩

end Logger

/-- Logging of the whole system, with loggers on a serial line. -/
abbrev LogSystem :=
  Log.System Logger

namespace LogSystem

open Log (InstallError)

/-- No logger has been installed, and nothing is let through. -/
abbrev empty : LogSystem :=
  Log.System.empty

/-- Install a logger, and let through what it writes. -/
def install (s : LogSystem) (l : Logger) : Except InstallError LogSystem :=
  Log.System.install s l l.filter

/-- Hand a record to the installed logger, if its level is let through. -/
def log (s : LogSystem) (r : Log.Record) : Driver Stalled Unit :=
  if s.maxLevel.admits r.level then
    match s.logger with
    | none => pure ()
    | some l => l.log r
  else
    pure ()

/-- What a client can ask of the logging of the whole system. -/
inductive Call where
  | install (l : Logger)
  | log (r : Log.Record)
  deriving DecidableEq, Repr

/-- The program behind a call. It delivers what the system is afterwards, or that
    an installation was refused. -/
def serve (s : LogSystem) : Call → Driver Stalled (Except InstallError LogSystem)
  | .install l => pure (s.install l)
  | .log r => do
    s.log r
    pure (.ok s)

/-- The system once a call has ended. -/
def after (s : LogSystem) : Outcome Stalled (Except InstallError LogSystem) → LogSystem
  | .ok (.ok s) => s
  | _ => s

/-- Logging of the whole system as a service. -/
def service : Service Bus.interface LogSystem Call Stalled (Except InstallError LogSystem) :=
  ⟨serve, after⟩

end LogSystem

end Serial

end BoardSupport
