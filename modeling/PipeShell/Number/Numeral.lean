import PipeShell.Failure
import PipeShell.Text.Blank
import PipeShell.Text.Digit

/-!
# Numerals

A count is written with decimal digits of any script, and a reader accepts at most 4300 of them.
An integer may also have a sign, blanks around it, and underscores between digits.
-/

namespace PipeShell.Numeral

/-- The number that the digits write. -/
def value (digits : List Nat) : Nat :=
  digits.foldl (fun n d => 10 * n + d) 0

/-- The most digits that a reader accepts. -/
def maxDigits : Nat := 4300

/-- The digits of a text that has at least one character and digits only. -/
def digits? (t : Text) : Option (List Nat) :=
  if t = [] then none else t.mapM Text.digitValue?

/-- The digits of a numeral, which one line feed may follow. -/
def lineDigits? (t : Text) : Option (List Nat) :=
  digits? (if t.getLast? = some '\n' then t.dropLast else t)

/-- The number that the digits write, if there are not too many of them. -/
def read (digits : List Nat) : Except Failure Nat :=
  if digits.length ≤ maxDigits then .ok (value digits) else .error (.tooManyDigits digits.length)

/-- The number that a numeral writes; no number when the text is no numeral. -/
def count? (t : Text) : Except Failure (Option Nat) :=
  match lineDigits? t with
  | none => .ok none
  | some digits => (read digits).map some

/-- The digits of a text in which single underscores may stand between digits. -/
def groupedDigits? : Text → Option (List Nat)
  | [] => none
  | [c] => (Text.digitValue? c).map ([·])
  | c :: '_' :: rest => do return (← Text.digitValue? c) :: (← groupedDigits? rest)
  | c :: rest => do return (← Text.digitValue? c) :: (← groupedDigits? rest)

/-- The blank may stand around an integer: any but the separator controls. -/
def isPadding (c : Char) : Bool :=
  Text.isBlank c && !(0x1C ≤ c.toNat && c.toNat ≤ 0x1F)

/-- The integer that a text writes, with an optional sign and blanks around it. -/
def integer? (t : Text) : Option Int :=
  let body := ((t.dropWhile isPadding).reverse.dropWhile isPadding).reverse
  let natural? := fun digits => do
    let digits ← groupedDigits? digits
    if digits.length ≤ maxDigits then some (value digits) else none
  match body with
  | '-' :: digits => (natural? digits).map fun n => -(n : Int)
  | '+' :: digits => (natural? digits).map fun n => (n : Int)
  | digits => (natural? digits).map fun n => (n : Int)

end PipeShell.Numeral
