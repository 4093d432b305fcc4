import PipeShell.Text.Basic

/-!
# Log records

What the parts of the program note about their work, each under the name of its part.
-/

namespace PipeShell

/-- How much a record matters. -/
inductive LogLevel
  | debug
  | info
  | warning
  | error
  deriving DecidableEq, Repr

namespace LogLevel

/-- The name of a level. -/
def name : LogLevel → Text
  | debug => "DEBUG"
  | info => "INFO"
  | warning => "WARNING"
  | error => "ERROR"

/-- Higher levels matter more. -/
def rank : LogLevel → Nat
  | debug => 0
  | info => 1
  | warning => 2
  | error => 3

/-- The levels, from the lowest. -/
def all : List LogLevel := [debug, info, warning, error]

/-- The level of a name. -/
def ofName? (t : Text) : Option LogLevel :=
  all.find? (·.name = t)

end LogLevel

/-- The parts of the program that keep a log. -/
inductive LogSource
  | stores
  | moves
  | shell
  | commandLine
  deriving DecidableEq, Repr

/-- The name under which a part logs. -/
def LogSource.name : LogSource → Text
  | stores => "sandpipe.adapters"
  | moves => "sandpipe.store"
  | shell => "sandpipe.shell.core"
  | commandLine => "sandpipe.cli"

/-- A record of the log. -/
structure LogRecord where
  level : LogLevel
  source : LogSource
  message : Text
  deriving DecidableEq, Repr

/-- A record as a line. -/
def LogRecord.render (r : LogRecord) : Text :=
  r.level.name ++ " " ++ r.source.name ++ ": " ++ r.message

end PipeShell
