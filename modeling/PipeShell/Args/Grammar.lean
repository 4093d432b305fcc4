import PipeShell.Args.Basic
import PipeShell.Number.Numeral
import PipeShell.Verb

/-!
# Argument grammars

How the tokens after a verb fill its argument record. Tokens that start with `-` are flags, any
other fills the next free slot, and flags that a verb does not know are ignored. A key that is not
set means its default.
-/

namespace PipeShell.Args

/-- The token is a flag. A single `-` is none. -/
def isFlag (token : Text) : Bool :=
  token.head? = some '-' && token ≠ ['-']

/-- The tokens that are no flags. -/
def operands (tokens : List Text) : List Text :=
  tokens.filter (!isFlag ·)

/-- The slots take the operands in order. -/
def fill : List Key → List Text → Args → Args
  | key :: keys, t :: ts, args => fill keys ts (args.set key (.text t))
  | _, _, args => args

/-- The flags of the table set their keys to "yes". -/
def mark (table : List (Text × Key)) (tokens : List Text) : Args :=
  tokens.foldl (fun args t =>
    match table.lookup t with
    | some key => args.set key (.flag true)
    | none => args) []

/-- Flags by the table, and operands in the slots. -/
def flagsAndSlots (table : List (Text × Key)) (slots : List Key) (tokens : List Text) : Args :=
  fill slots (operands tokens) (mark table tokens)

/-- The flags of a verb that only say "yes". -/
def flagTable : Verb → List (Text × Key)
  | .listDirectory => [("-l", .long), ("--long", .long)]
  | .remove =>
      [("-r", .recursive), ("-rf", .recursive), ("-R", .recursive), ("--recursive", .recursive)]
  | .sort =>
      [("-r", .reverse), ("--reverse", .reverse), ("-n", .numeric), ("--numeric", .numeric),
        ("-u", .unique), ("--unique", .unique), ("-f", .ignoreCase), ("--ignore-case", .ignoreCase)]
  | .deduplicate =>
      [("-c", .count), ("--count", .count), ("-d", .duplicatesOnly), ("--repeated", .duplicatesOnly),
        ("-u", .uniqueOnly), ("--unique", .uniqueOnly), ("-i", .ignoreCase),
        ("--ignore-case", .ignoreCase)]
  | _ => []

/-- The slots of a verb whose operands are single texts. -/
def slots : Verb → List Key
  | .help | .printWorkingDirectory | .clearScreen | .storageInfo | .resetAll => [.topic]
  | .move | .copy => [.source, .dest]
  | .compare => [.left, .right]
  | _ => [.path]

/-- One operand is a path, several are a list of paths. -/
def pathOrPaths (tokens : List Text) : Args :=
  match operands tokens with
  | [] => []
  | [path] => [(.path, .text path)]
  | paths => [(.paths, .texts paths)]

/-- All operands are a list of paths. -/
def pathList (tokens : List Text) : Args :=
  match operands tokens with
  | [] => []
  | paths => [(.paths, .texts paths)]

/-- The flags of a search, and its operands. A flag `-e` takes the next token as the pattern. -/
def searchFlags : List Text → Args → List Text → Args × List Text
  | [], args, found => (args, found)
  | [t], args, found =>
      if t = "-i" ∨ t = "--ignore-case" then (args.set .caseInsensitive (.flag true), found)
      else if t = "-v" ∨ t = "--invert-match" then (args.set .invertMatch (.flag true), found)
      else if isFlag t then (args, found)
      else (args, found ++ [t])
  | t :: next :: rest, args, found =>
      if t = "-i" ∨ t = "--ignore-case" then
        searchFlags (next :: rest) (args.set .caseInsensitive (.flag true)) found
      else if t = "-v" ∨ t = "--invert-match" then
        searchFlags (next :: rest) (args.set .invertMatch (.flag true)) found
      else if t = "-e" ∨ t = "--regexp" then
        searchFlags rest (args.set .pattern (.text next)) found
      else if isFlag t then searchFlags (next :: rest) args found
      else searchFlags (next :: rest) args (found ++ [t])

/-- The arguments of a search: the pattern is the first operand unless a flag gave it. -/
def search (tokens : List Text) : Args :=
  let (args, found) := searchFlags tokens [] []
  fill (if args.has .pattern then [.path] else [.pattern, .path]) found args

/-- The digits of a flag such as `-5`. -/
def shorthand? : Text → Option (List Nat)
  | '-' :: t => Numeral.lineDigits? t
  | _ => none

/-- The record with the number of lines that a token writes, if it writes one. -/
def setLines (token : Text) (args : Args) : Except Failure Args := do
  match ← Numeral.count? token with
  | some n => return args.set .lines (.number n)
  | none => return args

/-- What a token says on its own about the line range: a flag `-5` is a count, the first operand is
the path, and later operands are counts. -/
def lineRangeToken (t : Text) (args : Args) : Except Failure Args :=
  match shorthand? t with
  | some digits => do return args.set .lines (.number (← Numeral.read digits))
  | none =>
      if isFlag t then .ok args
      else if args.has .path then setLines t args
      else .ok (args.set .path (.text t))

/-- The arguments of a line range. A flag `-n` takes the next token as the count. -/
def lineRange : List Text → Args → Except Failure Args
  | [], args => .ok args
  | [t], args => lineRangeToken t args
  | t :: next :: rest, args =>
      if t = "-n" ∨ t = "--lines" then do lineRange rest (← setLines next args)
      else do lineRange (next :: rest) (← lineRangeToken t args)

/-- The flags that select what is counted. -/
def countTable : List (Text × Key) :=
  [("-l", .countLines), ("--lines", .countLines), ("-w", .countWords), ("--words", .countWords),
    ("-c", .countChars), ("-m", .countChars), ("--chars", .countChars)]

/-- The flags of a count: the first one deselects all three counts, and each selects its own. -/
def countFlags (tokens : List Text) : Args :=
  tokens.foldl (fun args t =>
    match countTable.lookup t with
    | none => args
    | some key =>
        let base : Args := if args = [] then
          [(.countLines, .flag false), (.countWords, .flag false), (.countChars, .flag false)]
          else args
        base.set key (.flag true)) []

/-- The arguments of a write: flags in front, then the path, and the rest is the content. -/
def writing : List Text → Args → Args
  | [], args => args
  | t :: rest, args =>
      if isFlag t then
        writing rest (if t = "-a" ∨ t = "--append" then args.set .append (.flag true) else args)
      else
        let args := args.set .path (.text t)
        if rest = [] then args else args.set .content (.text (Text.join [' '] rest))

/-- The argument record of a verb. -/
def parse (verb : Verb) (tokens : List Text) : Except Failure Args :=
  match verb with
  | .concatenate => .ok (pathOrPaths tokens)
  | .importFiles => .ok (pathList tokens)
  | .search => .ok (search tokens)
  | .head | .tail => lineRange tokens []
  | .wordCount => .ok (fill [.path] (operands tokens) (countFlags tokens))
  | .echo => .ok (if tokens = [] then [] else [(.text, .text (Text.join [' '] tokens))])
  | .write => .ok (writing tokens [])
  | _ => .ok (flagsAndSlots (flagTable verb) (slots verb) tokens)

end PipeShell.Args
