import PipeShell.Args.Basic
import PipeShell.Verb

/-!
# Pipelines

A pipeline is a row of stages, each a verb with its arguments. A line that is no command is a
pipeline marked as such, which routes it elsewhere and is no error.
-/

namespace PipeShell

/-- A verb with its arguments. -/
structure Stage where
  verb : Verb
  args : Args := []
  deriving DecidableEq, Repr

/-- What a line was read as. -/
structure Pipeline where
  stages : List Stage := []
  isPipeline : Bool := false
  error : Option Text := none
  deriving DecidableEq, Repr

namespace Stage

/-- A stage as `verb(key=value, ...)`. -/
def describe (s : Stage) : Text :=
  s.verb.word ++ "("
    ++ Text.join ", " (s.args.map fun (key, value) => key.name ++ "=" ++ value.render) ++ ")"

end Stage

namespace Pipeline

/-- There is something to run and no error. -/
def isRunnable (p : Pipeline) : Bool :=
  p.isPipeline && p.error.isNone && p.stages ≠ []

/-- A pipeline as `verb(key=value, ...) | ...`; empty when it cannot run. -/
def describe (p : Pipeline) : Text :=
  if p.isRunnable then Text.join " | " (p.stages.map Stage.describe) else []

end Pipeline

end PipeShell
