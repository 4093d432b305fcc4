import PipeShell.Pipeline.Reader
import PipeShell.Shell.Files
import PipeShell.Shell.Meta
import PipeShell.Shell.Navigation
import PipeShell.Shell.Search
import PipeShell.Shell.TextCommands

/-!
# Running lines

A pipeline runs its stages in order and feeds the output of each to the next, as far as that reads
piped text. The first failure ends it. A script runs its lines likewise.
-/

namespace PipeShell

namespace Command

/-- The command of a verb, with its arguments and the text piped into it, where texts are ordered by
code points. -/
def ofVerb (v : Verb) (args : Args) (piped : Option Text) : Command :=
  match v with
  | .help => help args
  | .listDirectory => listDirectory args
  | .concatenate => concatenate args piped
  | .read => read args
  | .makeDirectory => makeDirectory args
  | .createEmpty => createEmpty args
  | .remove => remove args
  | .removeDirectory => removeDirectory args
  | .move => move args
  | .copy => copy args
  | .printWorkingDirectory => printWorkingDirectory
  | .changeDirectory => changeDirectory args
  | .clearScreen => clearScreen
  | .tree => tree args
  | .head => lineWindow false args piped
  | .tail => lineWindow true args piped
  | .search => search args piped
  | .wordCount => wordCount args piped
  | .compare => compare args
  | .sort => sort id args piped
  | .deduplicate => deduplicate args piped
  | .echo => echo args
  | .write => write args piped
  | .importFiles => importFiles args
  | .exportFile => exportFile args
  | .storageInfo => storageInfo
  | .resetAll => resetAll

end Command

namespace Shell

/-- A step of a shell that does not fail itself: its answer says whether the command did. -/
abbrev Run := StateM ShellState Result

/-- Notes a record of the shell. -/
def note (level : LogLevel) (message : Text) : StateM ShellState Unit :=
  modify fun s =>
    { s with world := { s.world with log := s.world.log ++ [⟨level, .shell, message⟩] } }

/-- An output over the limit becomes a failure. The limit counts the bytes of the output in UTF-8.
Encoding the output is taken not to fail, as it does for lone surrogates only and a text holds none;
nothing around the limit would catch that failure. -/
def limitOutput (limit : Option Int) (r : Result) : Result :=
  match limit with
  | none => r
  | some bytes =>
      if (Text.byteLength r.output : Int) ≤ bytes then r
      else .fail ("Output limit (" ++ Text.ofInt bytes ++ " bytes) exceeded")

/-- The arguments of a stage in a record. -/
def renderArgs (args : Args) : Text :=
  "\x7b" ++ Text.join ", " (args.map fun (key, value) =>
    Text.quoted key.name ++ ": " ++ value.render) ++ "\x7d"

/-- The answer to a line that is no command. -/
def notACommand (line : Text) : Result :=
  let word := Text.firstWord line
  if Verb.isKnown word then .fail ("Not a command: " ++ Text.strip line)
  else .fail ("Unknown command: " ++ word ++ ". Type 'help' for available commands.")

/-- The answer with the description of its pipeline above it. -/
def describeAbove (p : Pipeline) (r : Result) : Result :=
  let description := "[" ++ p.describe ++ "]"
  { r with output := if r.output = [] then description else description ++ "\n" ++ r.output }

end Shell

/-- A table of commands: what a stage with a verb does with its arguments and the piped text. -/
abbrev Handlers := Verb → Args → Option Text → Command

namespace Handlers

open Shell (Run note limitOutput renderArgs notACommand describeAbove)

/-- The commands in a locale, which matters to the order of lines only. -/
def inLocale (collate : Collation) : Handlers := fun v args piped =>
  match v with
  | .sort => Command.sort collate args piped
  | _ => Command.ofVerb v args piped

variable (handlers : Handlers)

/-- Runs a stage whose verb is known and allowed. An unexpected failure is noted. -/
def runCommand (stage : Stage) (piped : Option Text) : Run := do
  let word := stage.verb.word
  let limit := (← get).shell.maxOutput
  match ← (handlers stage.verb stage.args piped).run with
  | .ok r => return limitOutput limit r
  | .error f =>
      if f.isExpected then return .fail f.message
      else
        note .warning (word ++ " failed unexpectedly")
        return .fail (word ++ " failed: " ++ f.message)

/-- Runs a stage on the output of the stage before it. -/
def runStage (stage : Stage) (before : Option Text) : Run := do
  let shell := (← get).shell
  let word := stage.verb.word
  if !shell.commands.contains stage.verb then return .fail ("Unknown command: " ++ word)
  else if !shell.allows stage.verb then
    return .fail ("Command '" ++ word ++ "' is disabled in this shell")
  else
    let piped := if stage.verb.isPipeAware then before else none
    note .debug ("stage " ++ word ++ " args=" ++ renderArgs stage.args ++ " piped="
      ++ (if piped.isSome then "True" else "False"))
    handlers.runCommand stage piped

/-- Runs stages on the output of the stage before them; `index` is the number of the first. -/
def runStages (index : Nat) (before : Option Text) (last : Result) : List Stage → Run
  | [] => return last
  | stage :: rest => do
      let r ← handlers.runStage stage before
      match r.error with
      | some error =>
          note .debug ("stage " ++ Text.ofNat index ++ " (" ++ stage.verb.word ++ ") failed: "
            ++ error)
          return r
      | none => runStages (index + 1) (some r.output) r rest

/-- Runs a pipeline. -/
def execute (p : Pipeline) : Run :=
  match p.error with
  | some error => return .fail error
  | none => handlers.runStages 0 none (.ok []) p.stages

/-- Runs a line that was read as a pipeline. -/
def execPipeline (line : Text) (p : Pipeline) : Run := do
  let shell := (← get).shell
  if !p.isPipeline then
    match shell.fallback with
    | some answer => return answer line
    | none => return notACommand line
  else
    match p.error with
    | some error => return .fail error
    | none =>
        note .debug ("running " ++ p.describe)
        let r ← handlers.execute p
        return if shell.debug then describeAbove p r else r

/-- Runs a line. Only a line that cannot be read fails. -/
def exec (line : Text) : Command := do
  if Text.strip line = [] then return .ok []
  else
    let p ← Pipeline.read line
    handlers.execPipeline line p

/-- Runs lines up to the first one that does not succeed. -/
def execLines (last : Result) : List Text → Command
  | [] => return last
  | line :: rest => do
      let r ← handlers.exec line
      if r.succeeded then execLines r rest else return r

/-- Runs the lines of a script that are not blank, up to the first one that does not succeed. -/
def execScript (script : Text) : Command :=
  handlers.execLines (.ok []) (Text.scriptLines script)

end Handlers

namespace Shell

/-- Runs a stage whose verb is known and allowed. -/
abbrev runCommand : Stage → Option Text → Run :=
  Handlers.runCommand Command.ofVerb

/-- Runs a stage on the output of the stage before it. -/
abbrev runStage : Stage → Option Text → Run :=
  Handlers.runStage Command.ofVerb

/-- Runs stages on the output of the stage before them. -/
abbrev runStages : Nat → Option Text → Result → List Stage → Run :=
  Handlers.runStages Command.ofVerb

/-- Runs a pipeline. -/
abbrev execute : Pipeline → Run :=
  Handlers.execute Command.ofVerb

/-- Runs a line that was read as a pipeline. -/
abbrev execPipeline : Text → Pipeline → Run :=
  Handlers.execPipeline Command.ofVerb

/-- Runs a line. -/
abbrev exec : Text → Command :=
  Handlers.exec Command.ofVerb

/-- Runs lines up to the first one that does not succeed. -/
abbrev execLines : Result → List Text → Command :=
  Handlers.execLines Command.ofVerb

/-- Runs the lines of a script that are not blank, up to the first one that does not succeed. -/
abbrev execScript : Text → Command :=
  Handlers.execScript Command.ofVerb

end Shell

end PipeShell
