import PipeShell.Pattern.Cursor
import PipeShell.Text.Digit

/-!
# Escapes in patterns

A backslash and a letter or digit name a code point, a class of characters, a place or an earlier
group; which of them depends on whether the escape stands in a set.
-/

namespace PipeShell.Pattern.Read

/-- The character is an octal digit. -/
def isOctal (c : Char) : Bool :=
  '0' ≤ c && c ≤ '7'

/-- The character is a hexadecimal digit. -/
def isHex (c : Char) : Bool :=
  c.isDigit || ('a' ≤ c && c ≤ 'f') || ('A' ≤ c && c ≤ 'F')

/-- The value of a digit in any base up to sixteen. -/
def digitOf (c : Char) : Nat :=
  if c.isDigit then c.toNat - 48 else if 'a' ≤ c then c.toNat - 87 else c.toNat - 55

/-- The number that the digits write in the base. -/
def numberIn (base : Nat) (digits : Text) : Nat :=
  digits.foldl (fun n c => base * n + digitOf c) 0

/-- The code point of an escaped control character or backslash. -/
def control? : Char → Option Nat
  | 'a' => some 7
  | 'b' => some 8
  | 'f' => some 12
  | 'n' => some 10
  | 'r' => some 13
  | 't' => some 9
  | 'v' => some 11
  | '\\' => some 92
  | _ => none

/-- The class of an escaped letter. -/
def category? : Char → Option Member
  | 'd' => some (.category .digit false)
  | 'D' => some (.category .digit true)
  | 's' => some (.category .blank false)
  | 'S' => some (.category .blank true)
  | 'w' => some (.category .word false)
  | 'W' => some (.category .word true)
  | _ => none

/-- The place of an escaped letter. -/
def place? : Char → Option Place
  | 'A' => some .textStart
  | 'Z' => some .textEnd
  | 'b' => some .boundary
  | 'B' => some .inside
  | _ => none

/-- A code point of so many hexadecimal digits. -/
def hexPoint (letter : Char) (count : Nat) : Read Nat := do
  let digits ← takeWhile isHex count
  let escape : Text := '\\' :: letter :: digits
  if digits.length < count then fault ("incomplete escape " ++ escape) escape.length
  else
    let n := numberIn 16 digits
    if n < 0x110000 then return n else fault ("bad escape " ++ escape) escape.length

/-- A code point by name. No character is known by name. -/
def namedPoint : Read Nat := do
  if ← skip '{' then
    let name ← takeName '}' "character name"
    fault ("undefined character name " ++ Text.quoted name) (name.length + 4)
  else fault "missing \x7b"

/-- An octal code point, which has to fit into a byte. -/
def octalPoint (digits : Text) : Read Nat := do
  let n := numberIn 8 digits
  if n ≤ 0xFF then return n
  else
    fault ("octal escape value \\" ++ digits ++ " outside of range 0-0o377") (digits.length + 1)

/-- A code point that is escaped alike inside and outside sets: the escapes of hexadecimal digits
and names, and characters that need no escape. -/
def plainPoint (c : Char) : Read Nat :=
  match c with
  | 'x' => hexPoint c 2
  | 'u' => hexPoint c 4
  | 'U' => hexPoint c 8
  | 'N' => namedPoint
  | _ => if c.isAlphanum then fault ("bad escape \\" ++ [c]) 2 else return c.toNat

/-- An escape inside a set. -/
def setEscape (c : Char) : Read Member :=
  match control? c, category? c with
  | some n, _ => return .point n
  | none, some m => return m
  | none, none => do
      if isOctal c then return .point (← octalPoint (c :: (← takeWhile isOctal 2)))
      else return .point (← plainPoint c)

/-- A reference to a group that is closed and, inside a look behind, stands before it. -/
def reference (number back : Nat) : Read Pattern := do
  let r ← get
  match r.closedWidth? number with
  | none => fault "cannot refer to an open group" back
  | some width =>
      match r.behindGroups with
      | some outside =>
          if outside ≤ number then
            fault "cannot refer to group defined in the same lookbehind subpattern"
          else return .again number width
      | none => return .again number width

/-- A reference to a group by number; the escape is so many digits long. -/
def numberedReference (digits : Text) : Read Pattern := do
  let number := numberIn 10 digits
  if number < (← get).groupCount then reference number (digits.length + 1)
  else fault ("invalid group reference " ++ Text.ofNat number) digits.length

/-- An escape of a digit other than zero: three octal digits are a code point, else one or two
digits are the number of a group. -/
def digitEscape (c : Char) : Read Pattern := do
  match ← takeWhile Char.isDigit 1 with
  | [] => numberedReference [c]
  | d :: _ =>
      if isOctal c && isOctal d then
        match ← takeWhile isOctal 1 with
        | [] => numberedReference [c, d]
        | e :: _ => return .point (← octalPoint [c, d, e])
      else numberedReference [c, d]

/-- An escape outside sets. -/
def escape (c : Char) : Read Pattern :=
  match place? c, category? c, control? c with
  | some p, _, _ => return .place p
  | none, some m, _ => return .set false [m]
  | none, none, some n => return .point n
  | none, none, none => do
      if c = '0' then return .point (numberIn 8 (← takeWhile isOctal 2))
      else if c.isDigit then digitEscape c
      else return .point (← plainPoint c)

end PipeShell.Pattern.Read
