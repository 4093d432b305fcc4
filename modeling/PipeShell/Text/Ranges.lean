import PipeShell.Text.Basic

/-!
# Classes of characters as tables

A class of characters is the increasing list of the code points at which membership changes, from
"no" at zero.
-/

namespace PipeShell.Text

/-- The number is in the class that changes at the listed numbers. -/
def inFlips : List Nat → Nat → Bool
  | [], _ => false
  | flip :: rest, n => if n < flip then false else !inFlips rest n

end PipeShell.Text
