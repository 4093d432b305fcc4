import PipeShell.Number.Numeral

/-!
# Flags of the command line

The flags, their spellings, and how a word of the command line is read as one. A long flag may be
cut short as long as only one flag begins so, and its value may follow a `=` in the same word.
-/

namespace PipeShell

/-- What the words of a command line are for: the program, or one of its modes. -/
inductive Topic
  | program
  | exec
  | shell
  deriving DecidableEq, Repr

namespace Topic

/-- The name of a topic. -/
def name : Topic → Text
  | program => "sandpipe"
  | exec => "exec"
  | shell => "shell"

/-- The modes of the program. -/
def modes : List Topic := [exec, shell]

/-- The topic's name with the names above it. -/
def title : Topic → Text
  | program => program.name
  | mode => program.name ++ " " ++ mode.name

end Topic

/-- The flags. -/
inductive Flag
  | help
  | root
  | quota
  | hostDirectory
  | debug
  | logLevel
  deriving DecidableEq, Repr

namespace Flag

/-- The spellings of a flag. -/
def spellings : Flag → List Text
  | help => ["-h".toList, "--help".toList]
  | root => ["--root".toList]
  | quota => ["--quota".toList]
  | hostDirectory => ["--host-dir".toList]
  | debug => ["--debug".toList]
  | logLevel => ["--log-level".toList]

/-- The name of a flag in messages. -/
def name (f : Flag) : Text :=
  Text.join ['/'] f.spellings

/-- The flag needs a value. -/
def takesValue : Flag → Bool
  | help | debug => false
  | root | quota | hostDirectory | logLevel => true

/-- The flags of a topic. -/
def ofTopic : Topic → List Flag
  | .program => [help]
  | .exec | .shell => [help, root, quota, hostDirectory, debug, logLevel]

/-- The spellings of a topic's flags, each with its flag. -/
def table (topic : Topic) : List (Text × Flag) :=
  (ofTopic topic).flatMap fun f => f.spellings.map (·, f)

/-- What is wrong with a word that spells the short flag `h` and goes on with a text: the flag takes
no value, but it may be repeated in the word. Anything else that follows is not looked at. -/
def refusedTail : Text → Option Text
  | 'h' :: '=' :: value => some value
  | 'h' :: rest => refusedTail rest
  | '-' :: rest => some ('-' :: rest)
  | _ => none

end Flag

/-- How a word of the command line is read. -/
inductive Word
  /-- A flag, with the value that stands in the same word. -/
  | flag (f : Flag) (attached : Option Text)
  /-- A word that looks like a flag, but is none of the topic. -/
  | unknown (t : Text)
  /-- A word that is no flag. -/
  | plain (t : Text)
  /-- The word after which no word is a flag. -/
  | separator
  /-- The beginning of several long flags. -/
  | ambiguous (t : Text) (spellings : List Text)
  deriving DecidableEq, Repr

namespace Word

/-- The text is a negative number with decimal digits of any script and maybe a point, and one line
feed may follow it. -/
def isNegativeNumber : Text → Bool
  | '-' :: number =>
      let number := if number.getLast? = some '\n' then number.dropLast else number
      let isDigit := fun c => (Text.digitValue? c).isSome
      match number.dropWhile isDigit with
      | [] => number ≠ []
      | '.' :: fraction => fraction ≠ [] && fraction.all isDigit
      | _ => false
  | _ => false

/-- The reading of a word that begins with a hyphen but is no flag. -/
def notAFlag (t : Text) : Word :=
  if isNegativeNumber t || t.contains ' ' then plain t else unknown t

/-- The part of a word before its first `=`, and the value after it. -/
def splitValue (t : Text) : Text × Option Text :=
  match t.dropWhile (· != '=') with
  | [] => (t, none)
  | _ :: value => (t.takeWhile (· != '='), some value)

/-- The reading of a word with two hyphens in front. -/
def ofLong (topic : Topic) (t : Text) : Word :=
  let (spelling, attached) := splitValue t
  match (Flag.table topic).lookup spelling with
  | some f => flag f attached
  | none =>
      match (Flag.table topic).filter (spelling.isPrefixOf ·.1) with
      | [] => notAFlag t
      | [(_, f)] => flag f attached
      | several => ambiguous t (several.map (·.1))

/-- The reading of a word before the separator. -/
def ofText (topic : Topic) : Text → Word
  | ['-', '-'] => separator
  | '-' :: '-' :: rest => ofLong topic ('-' :: '-' :: rest)
  | ['-'] => plain ['-']
  | '-' :: 'h' :: rest => flag .help (Flag.refusedTail ('h' :: rest))
  | '-' :: rest => notAFlag ('-' :: rest)
  | t => plain t

/-- The readings of the words of a topic, each for itself. -/
def readEach (topic : Topic) : List Text → List Word
  | [] => []
  | t :: rest =>
      match ofText topic t with
      | separator => separator :: rest.map plain
      | word => word :: readEach topic rest

/-- Gives the flags that need a value the plain words behind them. -/
def attach : List Word → List Word
  | .flag f none :: .plain value :: rest =>
      if f.takesValue then .flag f (some value) :: attach rest
      else .flag f none :: .plain value :: attach rest
  | word :: rest => word :: attach rest
  | [] => []

/-- The readings of the words of a topic. -/
def readAll (topic : Topic) (ts : List Text) : List Word :=
  attach (readEach topic ts)

end Word

end PipeShell
