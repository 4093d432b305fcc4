import PipeShell.Failure

/-!
# Faults of a pattern

A malformed pattern has a fault with a wording and, most often, a position. Some patterns break the
limits of the reader instead, which is a failure.
-/

namespace PipeShell.Pattern

/-- Why a pattern cannot be used. -/
inductive Fault
  | malformed (wording : Text) (position : Option Nat)
  | failure (f : Failure)
  deriving DecidableEq, Repr

/-- The number of lines that the text starts before the position. -/
def linesBefore (source : Text) (position : Nat) : Nat :=
  (source.take position).count '\n'

/-- The distance of the position from the last line feed before it, or one more than the position. -/
def columnAt (source : Text) (position : Nat) : Nat :=
  ((source.take position).reverse.takeWhile (· ≠ '\n')).length + 1

/-- The wording of a fault with its position in the pattern; the line and column are given when the
pattern has several lines. -/
def faultMessage (source wording : Text) : Option Nat → Text
  | none => wording
  | some position =>
      let place := wording ++ " at position " ++ Text.ofNat position
      if source.contains '\n' then
        place ++ " (line " ++ Text.ofNat (linesBefore source position + 1) ++ ", column "
          ++ Text.ofNat (columnAt source position) ++ ")"
      else place

end PipeShell.Pattern
