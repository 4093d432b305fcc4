import PipeShell.Disk.Picker
import PipeShell.Shell.Catalogue
import PipeShell.Store.Basic

/-!
# Shells

A shell is one session on a store: it owns its working directory and its options, so that several
shells can share a store. A command works on a shell and the world around it.
-/

namespace PipeShell

/-- What a command answers: its output, and the error if it failed. -/
structure Result where
  output : Text := []
  error : Option Text := none
  deriving DecidableEq, Repr

namespace Result

/-- A successful answer. -/
def ok (output : Text) : Result := { output }

/-- A failed answer. -/
def fail (error : Text) : Result := { error := some error }

/-- The command succeeded. -/
def succeeded (r : Result) : Bool :=
  r.error.isNone

end Result

/-- A shell: its working directory, its options and the verbs that it knows. -/
structure Shell where
  cwd : Text := []
  picker : Option Picker := none
  fallback : Option (Text → Result) := none
  allowed : Option (List Verb) := none
  maxOutput : Option Int := none
  debug : Bool := false
  clears : Bool := false
  commands : List Verb := Verb.all

namespace Shell

/-- The store path that the user's path means in this shell. -/
def resolve (s : Shell) (path : Option Text) : Text :=
  Path.resolve s.cwd path

/-- The working directory as the user sees it. -/
def pwd (s : Shell) : Text :=
  Path.display s.cwd

/-- The verbs that words allow, whatever their spelling. -/
def allowList (words : List Text) : List Verb :=
  words.filterMap Verb.resolve?

/-- The verb may run in this shell. -/
def allows (s : Shell) (v : Verb) : Bool :=
  s.allowed.all (·.contains v)

end Shell

/-- A shell in its world. -/
structure ShellState where
  shell : Shell
  world : World

/-- What a stage does with its arguments and the text that is piped into it. -/
abbrev Command := Action ShellState Result

instance : MonadLift (Action World) (Action ShellState) where
  monadLift action := fun s =>
    let (result, world) := action.run s.world
    (result, { s with world })

namespace Command

/-- The shell that the command runs in. -/
def shell : Action ShellState Shell := fun s =>
  (.ok s.shell, s)

/-- The disk of the host. -/
def disk : Action ShellState Disk := fun s =>
  (.ok s.world.disk, s)

/-- Changes the working directory. -/
def enter (cwd : Text) : Action ShellState Unit := fun s =>
  (.ok (), { s with shell := { s.shell with cwd } })

/-- The store path that the user's path means. -/
def resolve (path : Option Text) : Action ShellState Text := do
  return (← shell).resolve path

/-- The answer to a command that was not given what it needs. -/
def usage (t : Text) : Result :=
  .fail ("Usage: " ++ t)

end Command

end PipeShell
