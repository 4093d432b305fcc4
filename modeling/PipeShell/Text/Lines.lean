import PipeShell.Text.Blank

/-!
# Lines

Stored text ends its lines with a line feed. A script may also break lines at any other line
boundary of Unicode, and a text file on disk with carriage returns.
-/

namespace PipeShell.Text

/-- The text without one line feed at its end. -/
def dropFinalNewline (t : Text) : Text :=
  if t.getLast? = some '\n' then t.dropLast else t

/-- The lines of a text; one line feed at the end closes the last line and opens none. -/
def lines (t : Text) : List Text :=
  match dropFinalNewline t with
  | [] => []
  | c :: rest => pieces (· == '\n') (c :: rest)

/-- The lines with a line feed between neighbours. -/
def joinLines (ls : List Text) : Text :=
  join ['\n'] ls

/-- The character ends a line: line feed, vertical tab, form feed, carriage return, the separators
U+001C to U+001E, next line, and the line and paragraph separators. -/
def isLineBoundary (c : Char) : Bool :=
  c ∈ ['\n', '\x0b', '\x0c', '\r', '\x1c', '\x1d', '\x1e', '\x85', '\u2028', '\u2029']

/-- The lines of a script: stripped, without the blank ones. A carriage return and a line feed are
two boundaries with an empty line between them, which does not count. -/
def scriptLines (t : Text) : List Text :=
  ((pieces isLineBoundary t).map strip).filter (· ≠ [])

/-- Carriage returns, and carriage returns with a line feed, become line feeds. -/
def unifyNewlines : Text → Text
  | [] => []
  | '\r' :: '\n' :: t => '\n' :: unifyNewlines t
  | c :: t => (if c == '\r' then '\n' else c) :: unifyNewlines t

end PipeShell.Text
