import PipeShell.CommandLine.Invocation
import PipeShell.Shell.Exec
import PipeShell.Terminal.Session

/-!
# Runs on a console

A console has an input of lines, an output, and errors. A run opens a store, runs its task in a
shell, and writes answers to the output, and failures and the records of the log to the errors.
-/

namespace PipeShell

/-- What a run finds on its host apart from the disk: the homes of users, and the bytes that the
disk has free. -/
structure Surroundings where
  homes : Homes := []
  free : Nat := 0
  deriving DecidableEq, Repr

namespace Options

/-- The records that opening a store leaves. -/
def openingLog (o : Options) : List LogRecord :=
  match o.root with
  | some a => [⟨.info, .commandLine, "using host-backed store at " ++ a.toText⟩]
  | none => []

/-- Opens the store. -/
def openBacking (o : Options) (s : Surroundings) : Action Disk Backing := do
  match o.root with
  | some a => return .host (← Host.openAt a .utf8 s.free)
  | none => return .memory { quota := o.quota }

/-- The picker, which starts from the working directory if no other is given. -/
def picker (o : Options) (s : Surroundings) (d : Disk) : Except Failure Picker :=
  Picker.ofAddress s.homes (o.hostDirectory.getD (.ofSegments d.workingDirectory))

/-- Opens the store and a shell on it. -/
def openShell (o : Options) (s : Surroundings) : Action Disk ShellState := do
  let backing ← o.openBacking s
  let disk ← get
  let picker ← o.picker s disk
  return { shell := { picker := some picker, debug := o.debug }, world := { backing, disk } }

end Options

/-- A console: the shell that runs on it, the lowest level of records that it shows, and what was
written to it. -/
structure Console where
  state : ShellState
  level : LogLevel := .warning
  output : Text := []
  errors : Text := []

namespace Console

/-- The records of a level and above, a line each. -/
def renderLog (level : LogLevel) (records : List LogRecord) : Text :=
  (records.filter (level.rank ≤ ·.level.rank)).flatMap fun r => r.render ++ "\n"

/-- The text without line feeds at its end, and one line feed. -/
def closeLine (t : Text) : Text :=
  (t.reverse.dropWhile (· == '\n')).reverse ++ "\n"

/-- Runs a command in the shell, and shows the records that it leaves. -/
def perform (command : Command) : Action Console Result := fun c =>
  let (result, state) := command.run c.state
  let records := state.world.log.drop c.state.world.log.length
  (result, { c with state, errors := c.errors ++ renderLog c.level records })

/-- The console after an answer was written to it. An empty answer writes nothing. -/
def answer (r : Result) (c : Console) : Console :=
  match r.error with
  | some error => { c with errors := c.errors ++ "Error: " ++ error ++ "\n" }
  | none => if r.output = [] then c else { c with output := c.output ++ closeLine r.output }

/-- Runs a script, and says whether it succeeded. -/
def runScript (script : Text) : Action Console Bool := do
  let r ← perform (Shell.execScript script)
  modify (answer r)
  return r.succeeded

/-- Writes the prompt. -/
def prompt : Action Console Unit :=
  modify fun c => { c with output := c.output ++ c.state.shell.pwd ++ "$ " }

/-- Runs a line of the input; the run goes on when the answer is "yes". -/
def feedLine (line : Text) : Action Console Bool := do
  if Session.exitWords.contains (Text.strip line) then return false
  else
    let r ← perform (Shell.exec line)
    modify (answer r)
    return true

/-- Runs the lines of the input, each after a prompt, up to a word of farewell or the end. -/
def runLines : List Text → Action Console Unit
  | [] => prompt
  | line :: rest => do
      prompt
      if ← feedLine line then runLines rest

/-- The lines of an input, where the last one may lack its line feed. -/
def inputLines (input : Text) : List Text :=
  let ls := Text.pieces (· == '\n') input
  if ls.getLast? = some [] then ls.dropLast else ls

/-- Runs a task, and gives the exit code. -/
def run (input : Text) : Task → Action Console Nat
  | .script script => do return if ← runScript script then 0 else 1
  | .lines => do
      runLines (inputLines input)
      return 0

end Console

/-- What a run leaves: its exit code or the failure that ended it, what it wrote, and the disk. -/
structure Report where
  ending : Except Failure Nat
  output : Text := []
  errors : Text := []
  disk : Disk

/-- Runs what a command line asks for. -/
def Invocation.run (i : Invocation) (input : Text) (s : Surroundings) (disk : Disk) : Report :=
  let errors := Console.renderLog i.options.logLevel i.options.openingLog
  match i.options.openShell s disk with
  | (.error f, disk) => { ending := .error f, errors, disk }
  | (.ok state, _) =>
      let (ending, c) := (Console.run input i.task).run ⟨state, i.options.logLevel, [], errors⟩
      ⟨ending, c.output, c.errors, c.state.world.disk⟩

/-- Runs a command line. -/
def CommandLine.run (words : List Text) (input : Text) (s : Surroundings) (disk : Disk) : Report :=
  match Invocation.read words with
  | .error r => ⟨.ok r.exitCode, r.output, r.errors, disk⟩
  | .ok i => i.run input s disk

end PipeShell
