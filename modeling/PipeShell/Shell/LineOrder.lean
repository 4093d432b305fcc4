import PipeShell.Number.Numeral
import PipeShell.Number.Rounding
import PipeShell.Text.Blank
import PipeShell.Text.Case

/-!
# The order of lines

Lines are sorted by their text, by the number that they start with, or without regard to letter
case. The sort is stable in both directions. Lines with one key are duplicates.

Texts are compared by what the collation of the locale turns them into. The collation is a parameter:
a locale may give two different lines one key.
-/

namespace PipeShell

/-- What the locale turns a text into before texts are compared by code points. The locale whose
order is the order of code points leaves every text as it is. -/
abbrev Collation := Text → Text

/-- What lines are sorted by: a number and a collated text. -/
structure LineKey where
  number : Int
  text : Text
  deriving DecidableEq, Repr

namespace LineKey

/-- The first key comes before the second, or they are equal. -/
def atMost (a b : LineKey) : Bool :=
  a.number < b.number || (a.number = b.number && !Text.before b.text a.text)

/-- The place on the grid of rounded numbers of the decimal that a line starts with, zero when it
starts with none. -/
def leadingNumber (line : Text) : Int :=
  let t := Text.stripLeft line
  let (negative, t) := match t with
    | '-' :: t => (true, t)
    | '+' :: t => (false, t)
    | t => (false, t)
  let whole := t.takeWhile Text.isDigit
  let fraction := match t.drop whole.length with
    | '.' :: t => t.takeWhile Text.isDigit
    | _ => []
  let digits := (whole ++ fraction).filterMap Text.digitValue?
  let place : Int :=
    if whole = [] then 0 else Number.gridPlace (Numeral.value digits) (Nat.pow 10 fraction.length)
  if negative then -place else place

/-- The key of a line. -/
def ofLine (collate : Collation) (numeric ignoreCase : Bool) (line : Text) : LineKey where
  number := if numeric then leadingNumber line else 0
  text := collate (if ignoreCase then Text.foldCase line else line)

end LineKey

/-- The lines in ascending or descending order of their keys; lines with equal keys keep their
order. -/
def sortLines (key : Text → LineKey) (reverse : Bool) (lines : List Text) : List Text :=
  lines.mergeSort fun a b =>
    if reverse then (key b).atMost (key a) else (key a).atMost (key b)

/-- The runs of neighbouring lines with equal keys. -/
def lineRuns {κ : Type} [DecidableEq κ] (key : Text → κ) (lines : List Text) : List (List Text) :=
  lines.splitBy fun a b => key a = key b

end PipeShell
