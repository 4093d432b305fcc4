import PipeShell.Args.Grammar
import PipeShell.Shell.Basic
import PipeShell.Shell.LineOrder
import PipeShell.Text.Lines

/-!
# Commands on texts

Commands that read a text, from the pipe or else from files, and show some view of it.
-/

namespace PipeShell.Command

/-- Texts one after another, where a text that does not end its last line gets a line feed. -/
def concat : List Text → Text
  | [] => []
  | [t] => t
  | t :: rest => t ++ (if t.getLast? = some '\n' then [] else ['\n']) ++ concat rest

/-- The contents of the files at the user's paths. -/
def readAll : List Text → Action ShellState (List Text)
  | [] => return []
  | path :: rest => do
      let content ← Store.read (← resolve (some path))
      return content :: (← readAll rest)

/-- The piped text if there is some, else the text of the named files, if any are named. -/
def input (args : Args) (piped : Option Text) : Action ShellState (Option Text) := do
  match piped, args.sourcePaths with
  | some t, _ => return some t
  | none, [] => return none
  | none, paths => return some (concat (← readAll paths))

/-- Runs on the input, which must be given. -/
def withInput (args : Args) (piped : Option Text) (form : Text) (run : Text → Command) :
    Command := do
  match ← input args piped with
  | none => return usage form
  | some content => run content

/-- Shows the input. -/
def concatenate (args : Args) (piped : Option Text) : Command :=
  withInput args piped "cat <path>" fun content => return .ok content

/-- Shows a file. -/
def read (args : Args) : Command := do
  match args.text? .path with
  | none => return usage "read_file <path>"
  | some path => return .ok (← Store.read (← resolve (some path)))

/-- Writes the given content, or else the piped text, to a file, or appends it. -/
def write (args : Args) (piped : Option Text) : Command := do
  match args.text? .path with
  | none => return usage "write <path> <content>"
  | some path =>
      let content := (args.text? .content).getD (piped.getD [])
      let target ← resolve (some path)
      if ← Store.holds target then
        let former ← if args.holds .append then Store.read target else pure []
        Store.write target (former ++ content)
      else
        let _ ← Store.createFile target content
      return .ok ("Written to: /" ++ target)

/-- Shows a text. -/
def echo (args : Args) : Command :=
  return .ok (((args.get? .text).map Value.output).getD [])

/-- The lines shown when no count is given. -/
def defaultLines : Nat := 10

/-- The number of lines that a value asks for. -/
def lineCount : Option Value → Nat
  | some (.number n) => if 0 < n then n.toNat else defaultLines
  | _ => defaultLines

/-- The first or the last lines. -/
def window (fromEnd : Bool) (count : Nat) (lines : List Text) : List Text :=
  if fromEnd then lines.drop (lines.length - count) else lines.take count

/-- Shows the first or the last lines. After a pipe, an operand is the count if no other is
given. -/
def lineWindow (fromEnd : Bool) (args : Args) (piped : Option Text) : Command := do
  let view := fun count content =>
    Result.ok (Text.joinLines (window fromEnd (lineCount count) (Text.lines content)))
  match piped, args.text? .path, args.get? .lines with
  | some content, some path, none =>
      return view ((← Numeral.count? path).map fun n => .number n) content
  | some content, _, count => return view count content
  | none, some path, count => return view count (← Store.read (← resolve (some path)))
  | none, none, _ => return usage (if fromEnd then "tail <path> [lines]" else "head <path> [lines]")

/-- Shows the lines in the order of the locale. A line with NUL cannot be collated. -/
def sort (collate : Collation) (args : Args) (piped : Option Text) : Command :=
  withInput args piped "sort <path>" fun content => do
    let lines := Text.lines content
    if lines.any (·.contains '\x00') then throw .nullInLine
    let key := LineKey.ofLine collate (args.holds .numeric) (args.holds .ignoreCase)
    let sorted := sortLines key (args.holds .reverse) lines
    let shown := if args.holds .unique then (lineRuns key sorted).filterMap List.head? else sorted
    return .ok (Text.joinLines shown)

/-- The line that stands for a run, with the length of the run on request. -/
def runLine (counted : Bool) (run : List Text) : Text :=
  let line := run.headD []
  if counted then Text.padLeft 7 (Text.ofNat run.length) ++ " " ++ line else line

/-- Shows one line for each run of equal lines. -/
def deduplicate (args : Args) (piped : Option Text) : Command :=
  withInput args piped "uniq <path>" fun content =>
    let key := fun line => if args.holds .ignoreCase then Text.foldCase line else line
    let runs := (lineRuns key (Text.lines content)).filter fun run =>
      !(args.holds .duplicatesOnly && run.length < 2)
        && !(args.holds .uniqueOnly && 1 < run.length)
    return .ok (Text.joinLines (runs.map (runLine (args.holds .count))))

/-- The counts of a text: line feeds, words and characters. -/
def counts (content : Text) : List (Key × Nat) :=
  [(.countLines, content.count '\n'), (.countWords, (Text.words content).length),
    (.countChars, content.length)]

/-- Shows the selected counts. A count about which nothing is said is selected. -/
def wordCount (args : Args) (piped : Option Text) : Command :=
  withInput args piped "wc <path>" fun content =>
    let selected := (counts content).filter fun (key, _) =>
      ((args.get? key).map Value.holds).getD true
    let line := "  " ++ Text.join [' '] (selected.map fun (_, n) => Text.padLeft 6 (Text.ofNat n))
    match piped, args.text? .path with
    | none, some path => return .ok (line ++ " " ++ path)
    | _, _ => return .ok line

/-- What differs between two lists of lines, line by line from a number on. -/
def lineDifferences (number : Nat) : List Text → List Text → List Text
  | [], [] => []
  | old :: left, [] =>
      ("- " ++ Text.ofNat number ++ ": " ++ old) :: lineDifferences (number + 1) left []
  | [], new :: right =>
      ("+ " ++ Text.ofNat number ++ ": " ++ new) :: lineDifferences (number + 1) [] right
  | old :: left, new :: right =>
      if old = new then lineDifferences (number + 1) left right
      else
        ("- " ++ Text.ofNat number ++ ": " ++ old) :: ("+ " ++ Text.ofNat number ++ ": " ++ new)
          :: lineDifferences (number + 1) left right

/-- Shows the differences of two files line by line. -/
def compare (args : Args) : Command := do
  match args.text? .left, args.text? .right with
  | some left, some right =>
      let leftPath ← resolve (some left)
      let rightPath ← resolve (some right)
      let leftText ← Store.read leftPath
      let rightText ← Store.read rightPath
      if leftText = rightText then return .ok "Files are identical"
      let differences := lineDifferences 1 (Text.lines leftText) (Text.lines rightText)
      return .ok (Text.joinLines (("--- /" ++ leftPath) :: ("+++ /" ++ rightPath)
        :: (if differences = [] then ["(files differ only in trailing newline)"]
            else differences)))
  | _, _ => return usage "diff <path1> <path2>"

end PipeShell.Command
