import PipeShell.Text.Ranges

/-!
# Blanks

The blanks are the characters of Unicode that separate words or lines, and the four separator
controls U+001C to U+001F.
-/

namespace PipeShell.Text

/-- Where being a blank changes. -/
def blankFlips : List Nat := [
  0x9, 0xE, 0x1C, 0x21, 0x85, 0x86, 0xA0, 0xA1, 0x1680, 0x1681, 0x2000, 0x200B, 0x2028, 0x202A,
  0x202F, 0x2030, 0x205F, 0x2060, 0x3000, 0x3001]

/-- The character separates words or lines. -/
def isBlank (c : Char) : Bool :=
  inFlips blankFlips c.toNat

/-- The text without the blanks at its start. -/
def stripLeft (t : Text) : Text :=
  t.dropWhile isBlank

/-- The text without the blanks at its end. -/
def stripRight (t : Text) : Text :=
  (t.reverse.dropWhile isBlank).reverse

/-- The text without the blanks at its ends. -/
def strip (t : Text) : Text :=
  stripRight (stripLeft t)

/-- The words between blanks. -/
def words (t : Text) : List Text :=
  runs isBlank t

/-- The first word, empty when there is none. -/
def firstWord (t : Text) : Text :=
  (words t).headD []

end PipeShell.Text
