import PipeShell.Terminal.Keys
import PipeShell.Text.Blank
import PipeShell.Text.Printable

/-!
# The line editor

One line that is edited key by key, with a history of submitted lines. The editor keeps a display in
step with its line by relative motions, and repaints only what changed.
-/

namespace PipeShell

/-- What the editor asks of a display. -/
inductive Stroke
  | write (t : Text)
  | clear
  deriving DecidableEq, Repr

/-- What a key means to the editor. -/
inductive Press
  | enter
  | backspace
  | left
  | right
  | home
  | toEnd
  | up
  | down
  | interrupt
  | clear
  | insert (t : Text)
  | ignored
  deriving DecidableEq, Repr

/-- The meaning of a key. Other control and escape keys mean nothing. -/
def Press.ofKey (key : Text) : Press :=
  match key with
  | ['\r'] | ['\n'] => enter
  | ['\x7f'] | ['\x08'] => backspace
  | ['\x1b', '[', 'D'] => left
  | ['\x1b', '[', 'C'] => right
  | ['\x1b', '[', 'H'] | ['\x1b', '[', '1', '~'] | ['\x01'] => home
  | ['\x1b', '[', 'F'] | ['\x1b', '[', '4', '~'] | ['\x05'] => toEnd
  | ['\x1b', '[', 'A'] => up
  | ['\x1b', '[', 'B'] => down
  | ['\x03'] => interrupt
  | ['\x0c'] => clear
  | [] => ignored
  | t => if t.all Text.isPrintable then insert t else ignored

/-- The state of the editor: the line, the cursor in it, the history, and the entry that is recalled
from it. -/
structure Editor where
  buffer : Text := []
  cursor : Nat := 0
  history : List Text := []
  recalled : Option Nat := none
  deriving DecidableEq, Repr

namespace Editor

/-- Moves the cursor of the display to the left. -/
def leftward (n : Nat) : Text :=
  if n = 0 then [] else "\x1b[" ++ Text.ofNat n ++ "D"

/-- Moves the cursor of the display to the right. -/
def rightward (n : Nat) : Text :=
  if n = 0 then [] else "\x1b[" ++ Text.ofNat n ++ "C"

/-- Ends the line of the display. -/
def newline : Stroke := .write "\r\n"

/-- Repaints the prompt and the line, with the cursor in its place. -/
def redraw (prompt : Text) (e : Editor) : Stroke :=
  .write ("\r\x1b[2K" ++ prompt ++ e.buffer ++ leftward (e.buffer.length - e.cursor))

/-- Inserts a text at the cursor. -/
def insert (t : Text) (e : Editor) : Editor × List Stroke :=
  let rest := e.buffer.drop e.cursor
  ({ e with buffer := e.buffer.take e.cursor ++ t ++ rest, cursor := e.cursor + t.length },
    [.write (t ++ rest ++ leftward rest.length)])

/-- Removes the character before the cursor. -/
def backspace (e : Editor) : Editor × List Stroke :=
  if e.cursor = 0 then (e, [])
  else
    let rest := e.buffer.drop e.cursor
    ({ e with buffer := e.buffer.take (e.cursor - 1) ++ rest, cursor := e.cursor - 1 },
      [.write ("\x08" ++ rest ++ " " ++ leftward (rest.length + 1))])

/-- Moves the cursor to a place within the line. -/
def moveTo (place : Nat) (e : Editor) : Editor × List Stroke :=
  let place := min place e.buffer.length
  if place = e.cursor then (e, [])
  else
    ({ e with cursor := place },
      [.write (if e.cursor < place then rightward (place - e.cursor)
        else leftward (e.cursor - place))])

/-- Replaces the line, and goes to its end. -/
def replaceLine (prompt t : Text) (e : Editor) : Editor × List Stroke :=
  let e := { e with buffer := t, cursor := t.length }
  (e, [e.redraw prompt])

/-- Recalls an entry of the history. -/
def recallEntry (prompt : Text) (i : Nat) (e : Editor) : Editor × List Stroke :=
  replaceLine prompt (e.history[i]?.getD []) { e with recalled := some i }

/-- Recalls the entry before the recalled one, or the last one. -/
def historyBack (prompt : Text) (e : Editor) : Editor × List Stroke :=
  match e.recalled with
  | none => if e.history = [] then (e, []) else e.recallEntry prompt (e.history.length - 1)
  | some i => if e.history = [] ∨ i = 0 then (e, []) else e.recallEntry prompt (i - 1)

/-- Recalls the entry after the recalled one, or an empty line after the last one. -/
def historyForward (prompt : Text) (e : Editor) : Editor × List Stroke :=
  match e.recalled with
  | none => (e, [])
  | some i =>
      if i + 1 < e.history.length then e.recallEntry prompt (i + 1)
      else replaceLine prompt [] { e with recalled := none }

/-- An empty line with the same history. -/
def resetLine (e : Editor) : Editor :=
  { history := e.history }

/-- Abandons the line. -/
def interrupt (prompt : Text) (e : Editor) : Editor × List Stroke :=
  (e.resetLine, [.write "^C", newline, .write prompt])

/-- Submits the line, which enters the history unless it is blank. Gives the stripped line. -/
def submit (prompt : Text) (e : Editor) : Editor × List Stroke × Option Text :=
  let line := Text.strip e.buffer
  if line = [] then (e.resetLine, [newline, .write prompt], none)
  else ({ history := e.history ++ [e.buffer] }, [newline], some line)

/-- Handles a key that submits nothing. -/
def edit (prompt : Text) (press : Press) (e : Editor) : Editor × List Stroke :=
  match press with
  | .backspace => e.backspace
  | .left => e.moveTo (e.cursor - 1)
  | .right => e.moveTo (e.cursor + 1)
  | .home => e.moveTo 0
  | .toEnd => e.moveTo e.buffer.length
  | .up => e.historyBack prompt
  | .down => e.historyForward prompt
  | .interrupt => e.interrupt prompt
  | .clear => (e, [.clear, e.redraw prompt])
  | .insert t => e.insert t
  | .enter | .ignored => (e, [])

/-- Handles a key: the editor after it, what it asks of the display, and the submitted line. -/
def handle (prompt key : Text) (e : Editor) : Editor × List Stroke × Option Text :=
  match Press.ofKey key with
  | .enter => e.submit prompt
  | press =>
      let (e, strokes) := e.edit prompt press
      (e, strokes, none)

end Editor

end PipeShell
