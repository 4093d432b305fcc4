import PipeShell.Text.Basic

/-!
# Tokens

Both scans of a line share the quoting rule: `"` or `'` opens a span that only the same character
closes, the quotes are no content, and an unclosed span runs to the end. There is no escape
character. A quoted span makes no token on its own, so an empty one yields none.
-/

namespace PipeShell.Token

/-- The character opens a quoted span. -/
def isQuote (c : Char) : Bool :=
  c == '"' || c == '\''

/-- The character separates tokens outside quotes. -/
def isSeparator (c : Char) : Bool :=
  c == ' ' || c == '\t'

/-- The open quote after a character. -/
def nextQuote : Option Char → Char → Option Char
  | some q, c => if c = q then none else some q
  | none, c => if isQuote c then some c else none

/-- The content characters of a line, each with whether it is quoted; `opened` is the quote of the
span that the line starts in. -/
def scanFrom : Option Char → Text → List (Char × Bool)
  | _, [] => []
  | some q, c :: t => if c = q then scanFrom none t else (c, true) :: scanFrom (some q) t
  | none, c :: t => if isQuote c then scanFrom (some c) t else (c, false) :: scanFrom none t

/-- The content characters of a line, each with whether it is quoted. -/
def scan (line : Text) : List (Char × Bool) :=
  scanFrom none line

/-- The groups of content characters between unquoted separators. -/
def groups : List (Char × Bool) → List Text
  | [] => [[]]
  | (c, quoted) :: rest =>
      if !quoted && isSeparator c then [] :: groups rest
      else match groups rest with
        | [] => [[c]]
        | g :: gs => (c :: g) :: gs

/-- The tokens of a line: the groups that have content. -/
def tokenize (line : Text) : List Text :=
  (groups (scan line)).filter (· ≠ [])

/-- The pieces between the pipe characters outside quotes, with their quotes; `opened` is the quote
of the span that the line starts in. -/
def segmentsFrom : Option Char → Text → List Text
  | _, [] => [[]]
  | opened, c :: t =>
      if opened = none ∧ c = '|' then [] :: segmentsFrom none t
      else match segmentsFrom (nextQuote opened c) t with
        | [] => [[c]]
        | s :: rest => (c :: s) :: rest

/-- The pieces of a line between the pipe characters outside quotes. -/
def segments (line : Text) : List Text :=
  segmentsFrom none line

end PipeShell.Token
