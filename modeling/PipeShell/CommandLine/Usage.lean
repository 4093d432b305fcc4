import PipeShell.CommandLine.Flag
import PipeShell.Log
import PipeShell.Text.Lines
import PipeShell.Text.Quoted

/-!
# Usage of the program

The texts that explain the command line, and the wording of what is wrong with one.
-/

namespace PipeShell

namespace Topic

/-- The form of a topic's command line. -/
def form : Topic → List Text
  | program => ["sandpipe [-h] \x7bexec,shell\x7d ..."]
  | exec =>
      ["sandpipe exec [-h] [--root ROOT] [--quota QUOTA] [--host-dir HOST_DIR]",
        "                     [--debug] [--log-level \x7bDEBUG,INFO,WARNING,ERROR\x7d]",
        "                     command"]
  | shell =>
      ["sandpipe shell [-h] [--root ROOT] [--quota QUOTA] [--host-dir HOST_DIR]",
        "                      [--debug] [--log-level \x7bDEBUG,INFO,WARNING,ERROR\x7d]"]

/-- The usage of a topic. -/
def usage (t : Topic) : Text :=
  "usage: " ++ Text.joinLines t.form ++ "\n"

/-- What the words of a topic mean, apart from flags. -/
def positionals : Topic → List Text
  | program =>
      ["positional arguments:",
        "  \x7bexec,shell\x7d",
        "    exec        Run one or more command lines",
        "    shell       Start an interactive shell",
        ""]
  | exec =>
      ["positional arguments:",
        "  command               Command string to execute",
        ""]
  | shell => []

/-- What the flags of a topic mean. -/
def flags : Topic → List Text
  | program =>
      ["options:",
        "  -h, --help    show this help message and exit"]
  | exec | shell =>
      ["options:",
        "  -h, --help            show this help message and exit",
        "  --root ROOT           Persist the sandbox in this host directory (default:",
        "                        in memory).",
        "  --quota QUOTA         Byte quota for the in-memory store.",
        "  --host-dir HOST_DIR   Host directory used by import and export.",
        "  --debug               Prefix results with a description of the parsed",
        "                        pipeline.",
        "  --log-level \x7bDEBUG,INFO,WARNING,ERROR\x7d",
        "                        Logging level for diagnostics written to stderr."]

/-- The help on a topic. -/
def help (t : Topic) : Text :=
  t.usage ++ "\n" ++ Text.joinLines (t.positionals ++ t.flags) ++ "\n"

end Topic

/-- What is wrong with a command line. -/
inductive UsageError
  /-- A word begins several flags. -/
  | ambiguous (word : Text) (spellings : List Text)
  /-- A flag has no value. -/
  | valueMissing (f : Flag)
  /-- A flag that takes no value has one. -/
  | valueRefused (f : Flag) (value : Text)
  /-- The value of a flag is no integer. -/
  | notAnInteger (f : Flag) (value : Text)
  /-- An argument is not one of those that there are. -/
  | notAChoice (argument value : Text) (choices : List Text)
  /-- An argument is missing. -/
  | required (argument : Text)
  /-- Words are left over. -/
  | unrecognized (words : List Text)
  deriving DecidableEq, Repr

/-- The wording of what is wrong. -/
def UsageError.message : UsageError → Text
  | ambiguous word spellings =>
      "ambiguous option: " ++ word ++ " could match " ++ Text.join ", " spellings
  | valueMissing f => "argument " ++ f.name ++ ": expected one argument"
  | valueRefused f value =>
      "argument " ++ f.name ++ ": ignored explicit argument " ++ Text.quoted value
  | notAnInteger f value => "argument " ++ f.name ++ ": invalid int value: " ++ Text.quoted value
  | notAChoice argument value choices =>
      "argument " ++ argument ++ ": invalid choice: " ++ Text.quoted value ++ " (choose from "
        ++ Text.join ", " (choices.map Text.quoted) ++ ")"
  | required argument => "the following arguments are required: " ++ argument
  | unrecognized words => "unrecognized arguments: " ++ Text.join " " words

/-- Why a command line calls for no run: it asks for help, or something is wrong with it. -/
inductive Refusal
  | help (topic : Topic)
  | misuse (topic : Topic) (error : UsageError)
  deriving DecidableEq, Repr

namespace Refusal

/-- The exit code of a refusal. -/
def exitCode : Refusal → Nat
  | help _ => 0
  | misuse _ _ => 2

/-- What a refusal writes to the output. -/
def output : Refusal → Text
  | help topic => topic.help
  | misuse _ _ => []

/-- What a refusal writes to the errors. -/
def errors : Refusal → Text
  | help _ => []
  | misuse topic error => topic.usage ++ topic.title ++ ": error: " ++ error.message ++ "\n"

end Refusal

end PipeShell
