/-!
# Log Records

What drivers say about what they do, and how much of it is let through.

A record has a level, a target naming the part of the firmware it is about,
and a message. Levels are ordered by how much they matter; a filter lets
through everything at least as important as the level it is set to, or nothing
at all. However a record travels, it is written as one line.

The whole system has one logger. Only one is ever installed: the first one
stays, and later attempts are refused. The system has a filter of its own in
front of it, which is set when the logger is installed.

## Main definitions

* `Log.Level`: The five levels.
* `Log.Filter`: How much is let through.
* `Log.Record`: A level, a target and a message.
* `Log.Record.line`: The line a record is written as.
* `Log.System`: The installed logger, if any, and how much it is handed.
* `Log.System.install`: Installing one.
-/

namespace BoardSupport

namespace Log

/-- The levels of a record, most important first. -/
inductive Level where
  | error
  | warn
  | info
  | debug
  | trace
  deriving DecidableEq, Repr

namespace Level

/-- How unimportant a level is, from one to five. -/
def rank : Level → Nat
  | error => 1
  | warn => 2
  | info => 3
  | debug => 4
  | trace => 5

/-- The name of a level. -/
def name : Level → String
  | error => "ERROR"
  | warn => "WARN"
  | info => "INFO"
  | debug => "DEBUG"
  | trace => "TRACE"

/-- All levels, most important first. -/
def all : List Level :=
  [error, warn, info, debug, trace]

end Level

/-- How much a log lets through: nothing, or everything up to a level. -/
inductive Filter where
  | off
  | upTo (level : Level)
  deriving DecidableEq, Repr

namespace Filter

/-- Whether records of a level are let through. -/
def admits : Filter → Level → Bool
  | off, _ => false
  | upTo most, level => level.rank ≤ most.rank

/-- The name of a filter: that of its level, or `OFF`. -/
def name : Filter → String
  | off => "OFF"
  | upTo level => level.name

/-- All filters, the closed one first. -/
def all : List Filter :=
  off :: Level.all.map upTo

end Filter

/-- One thing said. -/
structure Record where
  level : Level
  target : String
  message : String
  deriving DecidableEq, Repr

/-- The line a record is written as, without its end. -/
def Record.line (r : Record) : String :=
  s!"[{r.level.name}] {r.target}: {r.message}"

/-- Logging of the whole system, with loggers of some kind: the logger that has
    been installed, if any, and how much is handed to it. -/
structure System (L : Type) where
  logger : Option L
  maxLevel : Filter
  deriving DecidableEq, Repr

/-- A logger was installed before. -/
inductive InstallError where
  | alreadyInstalled
  deriving DecidableEq, Repr

/-- The text of a refused installation. -/
def InstallError.message : InstallError → String
  | alreadyInstalled =>
    "attempted to set a logger after the logging system was already initialized"

namespace System

variable {L : Type}

/-- No logger has been installed, and nothing is let through. -/
def empty : System L :=
  ⟨none, .off⟩

/-- Set the logger, unless one was set before. -/
def setLogger (s : System L) (l : L) : Except InstallError (System L) :=
  match s.logger with
  | none => .ok { s with logger := some l }
  | some _ => .error .alreadyInstalled

/-- Set how much is let through. -/
def setMaxLevel (s : System L) (most : Filter) : System L :=
  { s with maxLevel := most }

/-- Install a logger, and let through what it admits. -/
def install (s : System L) (l : L) (most : Filter) : Except InstallError (System L) := do
  let s ← s.setLogger l
  pure (s.setMaxLevel most)

end System

end Log

end BoardSupport
