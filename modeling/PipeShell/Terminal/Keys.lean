import PipeShell.Text.Basic

/-!
# Keys

The raw input of a terminal is split into keys. An escape sequence that is complete within the input
is one key: ESC `[`, parameters and a final character, or ESC `O` and a character, or ESC and any
other character.
-/

namespace PipeShell.Keys

/-- The escape character. -/
def esc : Char := '\x1b'

/-- The character is a parameter of a control sequence. -/
def isParameter (c : Char) : Bool :=
  ('0' ≤ c && c ≤ '9') || c == ';' || c == '?'

/-- The character ends a control sequence. -/
def isFinal (c : Char) : Bool :=
  '@' ≤ c && c ≤ '~'

/-- The number of characters of the control sequence at the start of what follows ESC `[`. -/
def controlLength? (t : Text) : Option Nat :=
  let parameters := t.takeWhile isParameter
  match t.drop parameters.length with
  | c :: _ => if isFinal c then some (parameters.length + 1) else none
  | [] => none

/-- The number of characters that follow an ESC in its key. -/
def escapeLength : Text → Nat
  | [] => 0
  | '[' :: t => 1 + (controlLength? t).getD 0
  | 'O' :: _ :: _ => 2
  | _ :: _ => 1

/-- The keys of an input, which has at most `fuel` characters. -/
def splitWithin : Nat → Text → List Text
  | 0, _ => []
  | _, [] => []
  | fuel + 1, c :: t =>
      let more := if c == esc then escapeLength t else 0
      (c :: t.take more) :: splitWithin fuel (t.drop more)

/-- The keys of an input. -/
def split (t : Text) : List Text :=
  splitWithin t.length t

end PipeShell.Keys
