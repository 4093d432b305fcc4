import PipeShell.Text.Quoted

/-!
# Argument records

What a verb is given: values under keys, in the order in which the keys were first set.
-/

namespace PipeShell

/-- What an argument is for. -/
inductive Key
  | topic
  | path
  | paths
  | source
  | dest
  | left
  | right
  | long
  | recursive
  | caseInsensitive
  | invertMatch
  | pattern
  | lines
  | reverse
  | numeric
  | unique
  | ignoreCase
  | count
  | duplicatesOnly
  | uniqueOnly
  | countLines
  | countWords
  | countChars
  | text
  | append
  | content
  | other (name : Text)
  deriving DecidableEq, Repr

namespace Key

/-- The name of a key. -/
def name : Key → Text
  | topic => "topic"
  | path => "path"
  | paths => "paths"
  | source => "source"
  | dest => "dest"
  | left => "left"
  | right => "right"
  | long => "long"
  | recursive => "recursive"
  | caseInsensitive => "case_insensitive"
  | invertMatch => "invert_match"
  | pattern => "pattern"
  | lines => "lines"
  | reverse => "reverse"
  | numeric => "numeric"
  | unique => "unique"
  | ignoreCase => "ignore_case"
  | count => "count"
  | duplicatesOnly => "duplicates_only"
  | uniqueOnly => "unique_only"
  | countLines => "count_lines"
  | countWords => "count_words"
  | countChars => "count_chars"
  | text => "text"
  | append => "append"
  | content => "content"
  | other name => name

/-- The keys that the verbs know. -/
def known : List Key :=
  [topic, path, paths, source, dest, left, right, long, recursive, caseInsensitive, invertMatch,
    pattern, lines, reverse, numeric, unique, ignoreCase, count, duplicatesOnly, uniqueOnly,
    countLines, countWords, countChars, text, append, content]

/-- The key of a name. -/
def ofName (name : Text) : Key :=
  (known.find? (·.name = name)).getD (other name)

end Key

/-- The value of an argument. -/
inductive Value
  | text (t : Text)
  | number (n : Int)
  | flag (b : Bool)
  | texts (ts : List Text)
  deriving DecidableEq, Repr

namespace Value

/-- The text of a value that is one. -/
def text? : Value → Option Text
  | text t => some t
  | _ => none

/-- The list of a value that is one. -/
def texts? : Value → Option (List Text)
  | texts ts => some ts
  | _ => none

/-- The value counts as "yes": not empty, not zero, not "no". -/
def holds : Value → Bool
  | text t => t ≠ []
  | number n => n ≠ 0
  | flag b => b
  | texts ts => ts ≠ []

/-- A value in a description, where texts stand in quotes. -/
def render : Value → Text
  | text t => Text.quoted t
  | number n => Text.ofInt n
  | flag true => "True"
  | flag false => "False"
  | texts ts => "[" ++ Text.join ", " (ts.map Text.quoted) ++ "]"

/-- A value as the output of a command: a text stands for itself. -/
def output : Value → Text
  | text t => t
  | v => v.render

end Value

/-- The arguments of a verb, in the order in which their keys were first set. -/
abbrev Args := List (Key × Value)

namespace Args

/-- The value under a key. -/
def get? (args : Args) (key : Key) : Option Value :=
  args.lookup key

/-- The record with a value under a key; a key that is set keeps its place. -/
def set (key : Key) (value : Value) : Args → Args
  | [] => [(key, value)]
  | (k, v) :: rest => if k = key then (key, value) :: rest else (k, v) :: set key value rest

/-- The text under a key, if there is a text. -/
def text? (args : Args) (key : Key) : Option Text :=
  (args.get? key).bind Value.text?

/-- The list under a key, if there is a list. -/
def texts? (args : Args) (key : Key) : Option (List Text) :=
  (args.get? key).bind Value.texts?

/-- The value under a key counts as "yes"; an absent one does not. -/
def holds (args : Args) (key : Key) : Bool :=
  ((args.get? key).map Value.holds).getD false

/-- The key is set. -/
def has (args : Args) (key : Key) : Bool :=
  (args.get? key).isSome

/-- The paths to read, whether one or a list was given. -/
def sourcePaths (args : Args) : List Text :=
  match args.texts? .paths, args.text? .path with
  | some paths, _ => paths
  | none, some path => [path]
  | none, none => []

end Args

end PipeShell
