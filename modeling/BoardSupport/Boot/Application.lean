import BoardSupport.Config.Store
import BoardSupport.Firmware.Simulated
import BoardSupport.Firmware.Trace
import BoardSupport.Device.Memory
import BoardSupport.Serial.Logger

/-!
# The Configuration Application

An application run at boot, before anything reads the configuration. It makes
sure that the variable exists and holds an image, and says so in its status.

Its log records go to the console. The application can be built to send them
over the serial line as well, before they are printed and line by line; the line
is then set up on every run. The logger can be installed once, and a run that
finds one installed ends there.

## Main definitions

* `Boot.Operation`: What the application may ask: the firmware's services, the
  serial line, the console.
* `Boot.Sinks`: What the application can be built to log with.
* `Boot.logging`: Logging to all sinks.
* `Boot.ensureConfig`: The application, with any logger.
* `Boot.quietApplication`, `Boot.application`: The application as it can be built.
* `Boot.Board`: A board to run it on.
-/

namespace BoardSupport

namespace Boot

/-- What the application may ask. -/
inductive Operation where
  | firmware (operation : Services.Operation)
  | serial (operation : Bus.Operation)
  | print (text : String)

namespace Operation

/-- Every operation answers what it does where it comes from. -/
@[reducible] def Answer : Operation → Type
  | firmware operation => operation.Answer
  | serial operation => operation.Answer
  | print _ => Unit

end Operation

/-- The firmware's services, a serial line and a console. -/
@[reducible] def interface : Interface :=
  ⟨Operation, Operation.Answer⟩

/-- A program for the board. Waiting for the serial line is all that can go
    wrong on the way. -/
abbrev Task (α : Type) :=
  Program interface Serial.Stalled α

/-- Ask for one operation. -/
def ask (operation : Operation) : Task operation.Answer :=
  .ask operation fun answer => .done (.ok answer)

/-- A driver of the serial line, on this board. -/
def serial {α : Type} (p : Driver Serial.Stalled α) : Task α :=
  p.interpret fun operation => ask (.serial operation)

/-- Print a text on the console. -/
def print (text : String) : Task Unit :=
  ask (.print text)

/-- What loggers of a kind write to. A record that the filter lets through is
    printed on the console; a logger that has a serial line writes it there
    first. -/
class Sinks (L : Type) where
  filter : L → Log.Filter
  line : L → Option Serial.Logger

/-- A filter alone stands in front of the console alone. -/
instance : Sinks Log.Filter :=
  ⟨id, fun _ => none⟩

/-- A logger on the serial line has the console beside it. -/
instance : Sinks Serial.Logger :=
  ⟨Serial.Logger.filter, some⟩

section Build

variable {L : Type} [Sinks L] (l : L)

/-- A driver of the logger's serial line, if it has one. -/
def onLine (p : Serial.Logger → Driver Serial.Stalled Unit) : Task Unit :=
  match Sinks.line l with
  | none => pure ()
  | some line => serial (p line)

/-- Log a record to all sinks, if its level is let through. -/
def log (r : Log.Record) : Task Unit :=
  if (Sinks.filter l).admits r.level then do
    onLine l fun line => line.emit r
    print (r.line ++ "\n")
  else
    pure ()

/-- The sinks of a logger as a service that takes records. -/
def logging : Service interface Unit Log.Record Serial.Stalled Unit :=
  ⟨fun _ r => log l r, fun _ _ => ()⟩

/-- The firmware's services as the application uses them: records from below
    go to its own log. -/
def carryOut : (operation : Services.Operation) → Task operation.Answer
  | .getVariable id capacity => ask (.firmware (.getVariable id capacity))
  | .setVariable id attributes data => ask (.firmware (.setVariable id attributes data))
  | .log level message => log l ⟨level, "platform_config::store", message⟩

/-- Load the configuration, creating it if need be. -/
def loadConfig : Task (Except Config.Error Config.CpuSet) :=
  ((Config.load.interpret Services.provide).attempt).interpret (carryOut l)

/-- Set up the serial line, if there is one, and install the application's
    logger, unless there is one. -/
def installLogger (system : Log.System L) : Task (Except Log.InstallError (Log.System L)) := do
  onLine l fun _ => Serial.init 0 115200
  pure (system.install l (Sinks.filter l))

/-- Make sure the configuration exists, logging with `l`. Delivers the
    application's status and the logger installed afterwards. -/
def ensureConfig (system : Log.System L) : Task (Status × Log.System L) := do
  match ← installLogger l system with
  | .error .alreadyInstalled =>
    print "Platform configuration: logger already installed\n"
    pure (Status.alreadyStarted, system)
  | .ok system =>
    match ← loadConfig l with
    | .ok config =>
      log l ⟨.info, "platform_config_dxe",
        s!"{config.count} of {Config.maxCpus} CPUs enabled: {config.display}"⟩
      pure (Status.success, system)
    | .error cause =>
      log l ⟨.error, "platform_config_dxe",
        s!"Platform configuration unavailable: {cause.message}"⟩
      pure (cause.status, system)

end Build

/-- How much of its records the application lets through. -/
def verbosity : Log.Filter :=
  .upTo .debug

/-- The application built with the console alone. -/
abbrev quietApplication (system : Log.System Log.Filter) :
    Task (Status × Log.System Log.Filter) :=
  ensureConfig verbosity system

/-- The application's logger where it is built with the serial line. A byte is
    given up after `patience` reads that find no room for it. -/
def logger (patience : Nat) : Serial.Logger :=
  ⟨verbosity, patience⟩

/-- The application built with the serial line. -/
abbrev application (patience : Nat) (system : Serial.LogSystem) :
    Task (Status × Serial.LogSystem) :=
  ensureConfig (logger patience) system

/-- A board whose serial line is plain memory, with all that has been printed
    on its console. -/
structure Board where
  firmware : Firmware.Simulated
  uart : Memory
  console : String

/-- The console starts a new line at the left margin. -/
def consoleText (text : String) : String :=
  String.join (text.toList.map fun c => if c = '\n' then "\r\n" else c.toString)

/-- The board as surroundings of the application. -/
def board : Machine interface Board
  | .firmware operation, b =>
    let (answer, firmware) := Firmware.services operation b.firmware
    (answer, { b with firmware := firmware })
  | .serial operation, b =>
    let (answer, uart) := Memory.device.machine operation b.uart
    (answer, { b with uart := uart })
  | .print text, b => ((), { b with console := b.console ++ consoleText text })

/-- The variables read and written among some events, in order. -/
def calls (events : List (Event interface)) : List VariableCall :=
  events.filterMap fun e =>
    match e.operation with
    | .firmware operation => operation.call?
    | _ => none

end Boot

end BoardSupport
