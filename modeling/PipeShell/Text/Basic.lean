/-!
# Text

Text is the list of its characters, so that lengths, cursors and cuts count characters. This module
holds cutting at separators, padding and decimal numerals.

A character is a Unicode scalar value. The strings of the program can also hold lone surrogates,
which come from names and arguments that are no valid UTF-8; they are left out here. Such a string
has no encoding: measuring it for a quota or for the limit of an output fails, and so does writing it
to a file. What is said of all texts is therefore said of the strings without lone surrogates, as
lines, contents, names and working directories alike.
-/

namespace PipeShell

/-- Text is the list of its characters, none of which is a lone surrogate. -/
abbrev Text := List Char

instance : Coe String Text := ⟨String.toList⟩

namespace Text

/-- The pieces between the characters that satisfy `p`: one more piece than such characters. -/
def pieces (p : Char → Bool) : Text → List Text
  | [] => [[]]
  | c :: t =>
      if p c then [] :: pieces p t
      else match pieces p t with
        | [] => [[c]]
        | piece :: rest => (c :: piece) :: rest

/-- The pieces that are not empty. -/
def runs (p : Char → Bool) (t : Text) : List Text :=
  (pieces p t).filter (· ≠ [])

/-- The texts with `sep` between neighbours. -/
def join (sep : Text) : List Text → Text
  | [] => []
  | [t] => t
  | t :: rest => t ++ sep ++ join sep rest

/-- The text `n` times in a row. -/
def times (t : Text) : Nat → Text
  | 0 => []
  | n + 1 => t ++ times t n

/-- Blanks on the left up to the width. -/
def padLeft (width : Nat) (t : Text) : Text :=
  List.replicate (width - t.length) ' ' ++ t

/-- Blanks on the right up to the width. -/
def padRight (width : Nat) (t : Text) : Text :=
  t ++ List.replicate (width - t.length) ' '

/-- The decimal numeral of a natural number. -/
def ofNat (n : Nat) : Text :=
  Nat.toDigits 10 n

/-- The decimal numeral of an integer, with a minus sign below zero. -/
def ofInt : Int → Text
  | .ofNat n => ofNat n
  | .negSucc n => '-' :: ofNat (n + 1)

/-- The first text comes before the second by code points. -/
def before : Text → Text → Bool
  | _, [] => false
  | [], _ :: _ => true
  | a :: s, b :: t => a.toNat < b.toNat || (a == b && before s t)

end Text

end PipeShell
