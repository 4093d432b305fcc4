import PipeShell.Args.Grammar
import PipeShell.Pipeline.Basic
import PipeShell.Text.Blank
import PipeShell.Text.WordChar
import PipeShell.Token

/-!
# Reading pipelines

Tells command lines from natural language, and reads a command line into its stages. The first
stage has nothing piped into it, so some verbs must name a file there.
-/

namespace PipeShell.Pipeline

/-- The verbs that must name a file in the first stage. -/
def requiresSource (v : Verb) : Bool :=
  v = .concatenate || v = .search || v = .read

/-- The line reads like a request: it asks a question or says "please" in any letter case. -/
def isRequest (line : Text) : Bool :=
  line.contains '?'
    || (Text.runs (!Text.isWordChar ·) line).any fun word => Text.foldCase word = "please"

/-- The line is meant as a command: its first word is a verb, and it has a pipe or is no request. -/
def looksLikePipeline (line : Text) : Bool :=
  let trimmed := Text.strip line
  let head := trimmed.takeWhile (· ≠ '|')
  Verb.isKnown (Text.firstWord head) && (trimmed.contains '|' || !isRequest trimmed)

/-- The stage that a segment of a line writes, if its first token is a verb. -/
def readStage? (segment : Text) : Except Failure (Option Stage) :=
  match Token.tokenize (Text.strip segment) with
  | [] => .ok none
  | name :: tokens =>
      match Verb.resolve? name with
      | none => .ok none
      | some verb => do return some ⟨verb, ← Args.parse verb tokens⟩

/-- The stages of the segments, or the first segment that is none. -/
def readStages : List Text → Except Failure (Except Text (List Stage))
  | [] => .ok (.ok [])
  | segment :: rest => do
      match ← readStage? segment with
      | none => return .error segment
      | some stage =>
          match ← readStages rest with
          | .error bad => return .error bad
          | .ok stages => return .ok (stage :: stages)

/-- The stripped segments of a line that are not blank. -/
def commandSegments (line : Text) : List Text :=
  ((Token.segments (Text.strip line)).map Text.strip).filter (· ≠ [])

/-- A pipeline of stages; the first one must name a file where its verb requires one. -/
def ofStages (stages : List Stage) : Pipeline :=
  match stages with
  | [] => {}
  | first :: _ =>
      if requiresSource first.verb && !first.args.has .path && !first.args.has .paths then
        { isPipeline := true
          error := some ("First command (" ++ first.verb.word ++ ") requires a file path") }
      else { stages, isPipeline := true }

/-- Reads a line. Only a count with too many digits makes it fail. -/
def read (line : Text) : Except Failure Pipeline :=
  if looksLikePipeline line then do
    match ← readStages (commandSegments line) with
    | .error segment =>
        return { isPipeline := true, error := some ("Unknown command: " ++ Text.firstWord segment) }
    | .ok stages => return ofStages stages
  else .ok {}

end PipeShell.Pipeline
