import PipeShell.CommandLine.Usage
import PipeShell.Disk.Address
import PipeShell.Store.Memory

/-!
# Invocations

What a command line asks the program to do. Flags may stand before and after the other words. Words
that nobody takes are only refused at the end, so that help and other errors come first.
-/

namespace PipeShell

/-- The options of a run. -/
structure Options where
  root : Option Address := none
  quota : Int := Memory.defaultQuota
  hostDirectory : Option Address := none
  debug : Bool := false
  logLevel : LogLevel := .warning
  deriving DecidableEq, Repr

/-- What a run does: it runs one script, or the lines of its input. -/
inductive Task
  | script (t : Text)
  | lines
  deriving DecidableEq, Repr

/-- What a command line asks for. -/
structure Invocation where
  task : Task
  options : Options := {}
  deriving DecidableEq, Repr

namespace Invocation

/-- What was read of the words of a mode so far. -/
structure Reading where
  options : Options := {}
  script : Option Text := none
  extras : List Text := []
  deriving DecidableEq, Repr

/-- The options with the one of a flag, which takes a value, set. -/
def setOption (f : Flag) (value : Text) (o : Options) : Except UsageError Options :=
  match f with
  | .root => .ok { o with root := some (.ofText value) }
  | .hostDirectory => .ok { o with hostDirectory := some (.ofText value) }
  | .quota =>
      match Numeral.integer? value with
      | some quota => .ok { o with quota }
      | none => .error (.notAnInteger f value)
  | .logLevel =>
      match LogLevel.ofName? value with
      | some logLevel => .ok { o with logLevel }
      | none => .error (.notAChoice f.name value (LogLevel.all.map LogLevel.name))
  | .help | .debug => .error (.valueRefused f value)

/-- What was read, with a flag of the topic and its value. -/
def Reading.takeFlag (topic : Topic) (f : Flag) (value : Option Text) (r : Reading) :
    Except Refusal Reading :=
  match f, value with
  | f, some value =>
      match setOption f value r.options with
      | .ok options => .ok { r with options }
      | .error e => .error (.misuse topic e)
  | .help, none => .error (.help topic)
  | .debug, none => .ok { r with options := { r.options with debug := true } }
  | f, none => .error (.misuse topic (.valueMissing f))

/-- What was read, with words that nobody takes. -/
def Reading.leave (words : List Text) (r : Reading) : Reading :=
  { r with extras := r.extras ++ words }

/-- The mode runs a script and has none yet. -/
def Reading.lacksScript (topic : Topic) (r : Reading) : Bool :=
  topic = .exec && r.script.isNone

/-- The text of a separator. -/
def separatorText : Text := ['-', '-']

/-- Reads the words of a mode one by one. A separator next to the script's word belongs to it. -/
def readWords (topic : Topic) (r : Reading) : List Word → Except Refusal Reading
  | [] => .ok r
  | .flag f value :: rest => do readWords topic (← r.takeFlag topic f value) rest
  | .unknown t :: rest | .ambiguous t _ :: rest => readWords topic (r.leave [t]) rest
  | .plain t :: .separator :: rest =>
      if r.lacksScript topic then readWords topic { r with script := some t } rest
      else readWords topic (r.leave [t, separatorText]) rest
  | .plain t :: rest =>
      if r.lacksScript topic then readWords topic { r with script := some t } rest
      else readWords topic (r.leave [t]) rest
  | .separator :: .plain t :: rest =>
      if r.lacksScript topic then readWords topic { r with script := some t } rest
      else readWords topic (r.leave [separatorText, t]) rest
  | .separator :: rest => readWords topic (r.leave [separatorText]) rest

/-- The first word that begins several flags. -/
def firstAmbiguous? : List Word → Option UsageError
  | [] => none
  | .ambiguous t spellings :: _ => some (.ambiguous t spellings)
  | _ :: rest => firstAmbiguous? rest

/-- Reads the words of a mode, and gives those that nobody takes. -/
def readMode (topic : Topic) (words : List Text) : Except Refusal (Invocation × List Text) := do
  let words := Word.readAll topic words
  if let some e := firstAmbiguous? words then throw (.misuse topic e)
  let r ← readWords topic {} words
  if r.lacksScript topic then throw (.misuse topic (.required "command"))
  return (⟨r.script.elim .lines .script, r.options⟩, r.extras)

/-- The name of the argument that chooses the mode. -/
def modeArgument : Text := "command_name"

/-- Reads the words that follow the mode's name. -/
def readAfterMode (extras : List Text) (name : Text) (words : List Text) :
    Except Refusal Invocation := do
  match Topic.modes.find? (·.name = name) with
  | none =>
      throw (.misuse .program (.notAChoice modeArgument name (Topic.modes.map Topic.name)))
  | some topic =>
      let (invocation, more) ← readMode topic words
      if extras ++ more ≠ [] then throw (.misuse .program (.unrecognized (extras ++ more)))
      return invocation

/-- Reads the words of a command line; `extras` are earlier ones that nobody takes. -/
def readFrom (extras : List Text) : List Text → Except Refusal Invocation
  | [] => .error (.misuse .program (.required modeArgument))
  | t :: rest =>
      match Word.ofText .program t with
      | .flag f (some value) => .error (.misuse .program (.valueRefused f value))
      | .flag _ none => .error (.help .program)
      | .unknown _ | .ambiguous _ _ => readFrom (extras ++ [t]) rest
      | .plain _ => readAfterMode extras t rest
      | .separator =>
          if rest = [] then .error (.misuse .program (.required modeArgument))
          else readAfterMode extras t rest

/-- Reads a command line. -/
def read (words : List Text) : Except Refusal Invocation :=
  readFrom [] words

end Invocation

end PipeShell
