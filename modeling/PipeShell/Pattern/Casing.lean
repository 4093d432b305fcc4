import PipeShell.Text.Case

/-!
# Letter case in patterns

When a pattern ignores case, a character stands for its lower case and for the other lower-case
letters that have the same capital. Code points are numbers here, because a pattern may name one
that is no character.
-/

namespace PipeShell.Pattern

/-- How letters are compared. -/
inductive Casing
  | exact
  | ascii
  | unicode
  deriving DecidableEq, Repr

/-- The lower-case letters that share a capital, of Unicode 14. -/
def siblingClasses : List (List Nat) := [
  [105, 305], [115, 383], [181, 956], [837, 953, 8126], [912, 8147], [944, 8163], [946, 976],
  [949, 1013], [952, 977], [954, 1008], [960, 982], [961, 1009], [962, 963], [966, 981], [1074,
  7296], [1076, 7297], [1086, 7298], [1089, 7299], [1090, 7300, 7301], [1098, 7302], [1123,
  7303], [7304, 42571], [7777, 7835], [64261, 64262]]

/-- The lower-case letters with the same capital as the given one. -/
def siblings (n : Nat) : List Nat :=
  (siblingClasses.find? (·.contains n)).getD [n]

/-- The code points whose simple lower case is the given one. -/
def raised (n : Nat) : List Nat :=
  let capitals := Text.lowerShifts.filterMap fun s =>
    let m : Int := n - s.offset
    if s.first ≤ m ∧ m ≤ s.last ∧ (m - s.first) % s.step = 0 then some m.toNat else none
  if Text.shifted Text.lowerShifts n = n then n :: capitals else capitals

namespace Casing

/-- The lower case of a code point. -/
def lower : Casing → Nat → Nat
  | exact, n => n
  | ascii, n => if 65 ≤ n ∧ n ≤ 90 then n + 32 else n
  | unicode, n => Text.shifted Text.lowerShifts n

/-- The two code points are the same letter. -/
def same (casing : Casing) (m n : Nat) : Bool :=
  match casing with
  | unicode => (siblings (lower unicode m)).contains (lower unicode n)
  | _ => lower casing m = lower casing n

/-- The lower-case letter `n` is a member `m` of a set. Beyond the first 65536 code points a member
stands for itself alone. -/
def isMember (casing : Casing) (m n : Nat) : Bool :=
  if casing.lower m < 0x10000 then casing.same m n else m = n

/-- The lower-case letter `n` is in the range of a set in some letter case. -/
def inRange (casing : Casing) (low high n : Nat) : Bool :=
  let within := fun m => low ≤ m && m ≤ high
  match casing with
  | exact => within n
  | ascii =>
      within n && casing.lower n = n || 97 ≤ n && n ≤ 122 && within (n - 32)
        || 0x10000 ≤ high && (raised n).any within
  | unicode => (siblings n).any fun sibling => (raised sibling).any within

end Casing

end PipeShell.Pattern
