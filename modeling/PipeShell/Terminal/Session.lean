import PipeShell.Shell.Exec
import PipeShell.Terminal.Editor
import PipeShell.Text.Utf8

/-!
# Terminal sessions

A session feeds the keys of a terminal to a line editor, runs each submitted line in a shell, and
shows the answer. It ends with a word of farewell, or with the end-of-input key on an empty line.
-/

namespace PipeShell

/-- A session: its shell, its editor, whether the shell clears this session's screen, and all that
was written to the screen. -/
structure Session where
  state : ShellState
  editor : Editor := {}
  ownsScreen : Bool := true
  written : Text := []

/-- What a step of a session leaves: an answer, or the failure of a line that cannot be read. -/
abbrev SessionStep (α : Type) := Action Session α

namespace Session

/-- The end-of-input key. -/
def endKey : Text := ['\x04']

/-- The words that end a session. -/
def exitWords : List Text := ["exit", "quit", ":q"]

/-- A session of a shell. The shell's clearings reach the screen unless they are hooked already. -/
def start (state : ShellState) : Session where
  state := { state with shell := { state.shell with clears := true } }
  ownsScreen := !state.shell.clears

/-- The prompt shows the working directory. -/
def prompt (s : Session) : Text :=
  s.state.shell.pwd ++ "$ "

/-- What a stroke sends to the screen. -/
def strokeText : Stroke → Text
  | .write t => t
  | .clear => "\x1b[2J\x1b[H"

/-- The session after strokes on its screen. -/
def paint (strokes : List Stroke) (s : Session) : Session :=
  { s with written := s.written ++ strokes.flatMap strokeText }

/-- What shows the answer of a line. -/
def answer (r : Result) : List Stroke :=
  match r.error with
  | some error => [.write ("Error: " ++ error ++ "\r\n")]
  | none =>
      if r.output = [] then []
      else (Text.pieces (· == '\n') r.output).map fun line => .write (line ++ "\r\n")

/-- Runs a submitted line and shows its answer and the next prompt. -/
def runLine (line : Text) : SessionStep Unit := fun s =>
  let (result, state) := (Shell.exec line).run s.state
  let clearings := if s.ownsScreen then state.world.clears - s.state.world.clears else 0
  let s := { s with state }.paint (List.replicate clearings .clear)
  match result with
  | .error f => (.error f, s)
  | .ok r =>
      let s := s.paint (answer r)
      (.ok (), s.paint [.write s.prompt])

/-- Feeds a key; the session goes on when the answer is "yes". -/
def feed (key : Text) : SessionStep Bool := do
  let s ← get
  if key = endKey ∧ s.editor.buffer = [] then
    set (s.paint [Editor.newline])
    return false
  else
    let (editor, strokes, line) := s.editor.handle s.prompt key
    set ({ s with editor }.paint strokes)
    match line with
    | none => return true
    | some line =>
        if exitWords.contains line then return false
        else
          runLine line
          return true

/-- Feeds keys up to the first one that ends the session. -/
def feedAll : List Text → SessionStep Bool
  | [] => return true
  | key :: rest => do
      if ← feed key then feedAll rest else return false

/-- Repaints the line when the size of the screen changed. -/
def resize (s : Session) : Session :=
  s.paint [s.editor.redraw s.prompt]

/-- The most bytes that come with one read. -/
def maxRead : Nat := 64

/-- Cuts a chunk into reads; the chunk has at most `fuel` bytes. -/
def readsWithin : Nat → List UInt8 → List (List UInt8)
  | 0, _ => []
  | _, [] => []
  | fuel + 1, b :: rest =>
      (b :: rest.take (maxRead - 1)) :: readsWithin fuel (rest.drop (maxRead - 1))

/-- The reads that chunks of input come in. -/
def reads (chunks : List (List UInt8)) : List (List UInt8) :=
  chunks.flatMap fun chunk => readsWithin chunk.length chunk

/-- The texts of the reads; a character may be cut by them. -/
def decodeReads (started : Option Text.Started) : List (List UInt8) → List Text
  | [] => []
  | bytes :: rest =>
      let (t, started) := Text.decodeChunk started bytes
      t :: decodeReads started rest

/-- Feeds the keys of the reads. Each read is split into keys on its own. -/
def feedReads : List Text → SessionStep Unit
  | [] => return
  | t :: rest => do
      if ← feedAll (Keys.split t) then feedReads rest else return

/-- Runs a session on the reads up to its end or the end of the input. -/
def run (input : List (List UInt8)) : SessionStep Unit := do
  modify fun s => s.paint [.write s.prompt]
  feedReads (decodeReads none input)

end Session

end PipeShell
