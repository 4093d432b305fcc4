import PipeShell.Text.Case

/-!
# Verbs

The closed vocabulary of commands: every verb has one canonical word, and some have aliases. Words
are recognised in any letter case.
-/

namespace PipeShell

/-- The commands. -/
inductive Verb
  | help
  | listDirectory
  | concatenate
  | read
  | makeDirectory
  | createEmpty
  | remove
  | removeDirectory
  | move
  | copy
  | printWorkingDirectory
  | changeDirectory
  | clearScreen
  | tree
  | head
  | tail
  | search
  | wordCount
  | compare
  | sort
  | deduplicate
  | echo
  | write
  | importFiles
  | exportFile
  | storageInfo
  | resetAll
  deriving DecidableEq, Repr

namespace Verb

/-- Every verb once. -/
def all : List Verb :=
  [help, listDirectory, concatenate, read, makeDirectory, createEmpty, remove, removeDirectory,
    move, copy, printWorkingDirectory, changeDirectory, clearScreen, tree, head, tail, search,
    wordCount, compare, sort, deduplicate, echo, write, importFiles, exportFile, storageInfo,
    resetAll]

/-- The canonical word of a verb. -/
def word : Verb → Text
  | help => "help"
  | listDirectory => "ls"
  | concatenate => "cat"
  | read => "read_file"
  | makeDirectory => "mkdir"
  | createEmpty => "touch"
  | remove => "rm"
  | removeDirectory => "rmdir"
  | move => "mv"
  | copy => "cp"
  | printWorkingDirectory => "pwd"
  | changeDirectory => "cd"
  | clearScreen => "clear"
  | tree => "tree"
  | head => "head"
  | tail => "tail"
  | search => "grep"
  | wordCount => "wc"
  | compare => "diff"
  | sort => "sort"
  | deduplicate => "uniq"
  | echo => "echo"
  | write => "write"
  | importFiles => "import"
  | exportFile => "export"
  | storageInfo => "storage"
  | resetAll => "reset"

/-- The other words, in alphabetical order. -/
def aliases : List (Text × Verb) :=
  [("cls", clearScreen), ("compare", compare), ("copy", copy), ("del", remove),
    ("df", storageInfo), ("dir", listDirectory), ("find", search), ("less", concatenate),
    ("list", listDirectory), ("md", makeDirectory), ("more", concatenate), ("move", move),
    ("read", read), ("rename", move), ("type", concatenate), ("write_file", write)]

/-- The verb with exactly this canonical word. -/
def ofWord? (word : Text) : Option Verb :=
  all.find? (·.word = word)

/-- The verb that a word names in any letter case, as its canonical word or an alias. -/
def resolve? (name : Text) : Option Verb :=
  let key := Text.lower name
  (ofWord? key).orElse fun _ => aliases.lookup key

/-- The aliases of a verb, in alphabetical order. -/
def aliasesOf (v : Verb) : List Text :=
  aliases.filterMap fun (name, target) => if target = v then some name else none

/-- The word names a verb. -/
def isKnown (name : Text) : Bool :=
  (resolve? name).isSome

end Verb

end PipeShell
