import PipeShell.Verb

/-!
# The catalogue of commands

How each verb is used and what it does, as the help says, and whether it reads piped input.
-/

namespace PipeShell.Verb

/-- How a verb is written. -/
def usage : Verb → Text
  | help => "help [command]"
  | listDirectory => "ls [path]"
  | concatenate => "cat <path> [path...]"
  | read => "read_file <path>"
  | makeDirectory => "mkdir <path>"
  | createEmpty => "touch <path>"
  | remove => "rm <path>"
  | removeDirectory => "rmdir <path>"
  | move => "mv <source> <dest>"
  | copy => "cp <source> <dest>"
  | printWorkingDirectory => "pwd"
  | changeDirectory => "cd <path>"
  | clearScreen => "clear"
  | tree => "tree [path]"
  | head => "head <path> [lines]"
  | tail => "tail <path> [lines]"
  | search => "grep <pattern> <path>"
  | wordCount => "wc <path>"
  | compare => "diff <path1> <path2>"
  | sort => "sort <path>"
  | deduplicate => "uniq <path>"
  | echo => "echo [text...]"
  | write => "write <path> <content>"
  | importFiles => "import [host-path...]"
  | exportFile => "export <path>"
  | storageInfo => "storage"
  | resetAll => "reset"

/-- What a verb does. -/
def description : Verb → Text
  | help => "Show available commands"
  | listDirectory => "List files and directories"
  | concatenate => "Display file contents"
  | read => "Read a file"
  | makeDirectory => "Create directory"
  | createEmpty => "Create empty file"
  | remove => "Remove file"
  | removeDirectory => "Remove directory and its contents"
  | move => "Move/rename file"
  | copy => "Copy file"
  | printWorkingDirectory => "Print working directory"
  | changeDirectory => "Change directory"
  | clearScreen => "Clear terminal"
  | tree => "Show directory tree"
  | head => "Show the first N lines"
  | tail => "Show the last N lines"
  | search => "Search for a pattern (case-insensitive regex)"
  | wordCount => "Count lines, words and characters"
  | compare => "Compare two files line by line"
  | sort => "Sort lines"
  | deduplicate => "Drop adjacent duplicate lines"
  | echo => "Print text"
  | write => "Write content (or piped input) to a file"
  | importFiles => "Import files from the host"
  | exportFile => "Export file to the host"
  | storageInfo => "Show storage usage"
  | resetAll => "Remove every file in the store"

/-- The verb reads the output of the stage before it. -/
def isPipeAware : Verb → Bool
  | concatenate | search | write | head | tail | sort | deduplicate | wordCount => true
  | _ => false

/-- The verbs in the order of their words. -/
def sorted : List Verb → List Verb :=
  fun verbs => verbs.mergeSort fun a b => !Text.before b.word a.word

end PipeShell.Verb
