import PipeShell.Pattern.Basic
import PipeShell.Pattern.Fault

/-!
# Reading a pattern symbol by symbol

A symbol of a pattern is a character, or a backslash with the character after it. The reader always
looks one symbol ahead, so a backslash at the very end is a fault as soon as it comes next.
-/

namespace PipeShell.Pattern

/-- What the reader of a pattern keeps: the rest of the pattern and its position, the modes of the
whole, the widths of the groups that are closed, their names, the number of groups outside the
outermost look behind, and where a condition first named a group. -/
structure Reading where
  rest : Text
  position : Nat := 0
  modes : Modes
  groups : List (Option Width) := []
  names : List (Text × Nat) := []
  behindGroups : Option Nat := none
  conditions : List (Nat × Nat) := []

/-- A step of the reader. -/
abbrev Read := StateT Reading (Except Fault)

/-- The number of groups, the whole pattern included. -/
def Reading.groupCount (r : Reading) : Nat :=
  r.groups.length + 1

/-- The width of a group that is closed. -/
def Reading.closedWidth? (r : Reading) (number : Nat) : Option Width :=
  if number = 0 then none else (r.groups[number - 1]?).join

namespace Read

/-- A fault some characters before the next symbol. -/
def fault {α : Type} (wording : Text) (back : Nat := 0) : Read α := fun r =>
  .error (.malformed wording (some (r.position - back)))

/-- A fault at a position. -/
def faultAt {α : Type} (wording : Text) (position : Nat) : Read α := fun _ =>
  .error (.malformed wording (some position))

/-- The position of the next symbol. -/
def position : Read Nat := fun r => .ok (r.position, r)

/-- The next symbol. -/
def peek : Read (Option Text) := fun r =>
  match r.rest with
  | [] => .ok (none, r)
  | '\\' :: c :: _ => .ok (some ['\\', c], r)
  | c :: _ => .ok (some [c], r)

/-- Goes to a place of the pattern. -/
def goTo (rest : Text) (position : Nat) : Read Unit := fun r =>
  if rest = ['\\'] then .error (.malformed "bad escape (end of pattern)" (some position))
  else .ok ((), { r with rest, position })

/-- Takes the next symbol. -/
def take : Read (Option Text) := do
  let r ← get
  match ← peek with
  | none => return none
  | some s =>
      goTo (r.rest.drop s.length) (r.position + s.length)
      return some s

/-- Takes the next symbol if it is the character. -/
def skip (c : Char) : Read Bool := do
  if (← peek) = some [c] then
    let _ ← take
    return true
  else return false

/-- Takes at most so many symbols that are characters of the class. -/
def takeWhile (p : Char → Bool) : Nat → Read Text
  | 0 => return []
  | n + 1 => do
      match ← peek with
      | some [c] =>
          if p c then
            let _ ← take
            return c :: (← takeWhile p n)
          else return []
      | _ => return []

/-- Takes a name and the character that ends it. -/
def takeUntil (ending : Char) (what : Text) (fuel : Nat) (name : Text) : Read Text :=
  match fuel with
  | 0 => fault ("missing " ++ what)
  | fuel + 1 => do
      match ← take with
      | none =>
          if name = [] then fault ("missing " ++ what)
          else fault ("missing " ++ [ending] ++ ", unterminated name") name.length
      | some s =>
          if s = [ending] then
            if name = [] then fault ("missing " ++ what) 1 else return name
          else takeUntil ending what fuel (name ++ s)

/-- Takes a name up to the character that ends it. -/
def takeName (ending : Char) (what : Text) : Read Text := do
  takeUntil ending what ((← get).rest.length + 1) []

end Read

end PipeShell.Pattern
