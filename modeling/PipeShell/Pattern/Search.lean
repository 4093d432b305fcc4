import PipeShell.Pattern.Reader
import PipeShell.Text.Blank

/-!
# Searching

Whether a pattern matches somewhere in a text. The matcher tries what a pattern can take in order
and hands each try on to what has to match after it, so that the first try that leads to the end
wins.
-/

namespace PipeShell.Pattern

/-- A place in a text, with the characters before it, the nearest first, those after it, and what
the groups matched so far. -/
structure Spot where
  before : Text
  after : Text
  matched : List (Nat × Text) := []

/-- What has to match after a pattern. -/
abbrev Rest := Spot → Option Spot

namespace Spot

/-- The place after the next character, if that satisfies `p`. -/
def forward? (s : Spot) (p : Char → Bool) : Option Spot :=
  match s.after with
  | [] => none
  | c :: after => if p c then some { s with before := c :: s.before, after } else none

/-- The place so many characters before. -/
def back? (s : Spot) : Nat → Option Spot
  | 0 => some s
  | n + 1 =>
      match s.before with
      | [] => none
      | c :: before => back? { s with before, after := c :: s.after } n

/-- The place after the text, if that comes next when letters are compared so. -/
def through? (s : Spot) (casing : Casing) : Text → Option Spot
  | [] => some s
  | c :: t => do
      let s ← s.forward? fun d => casing.lower c.toNat = casing.lower d.toNat
      through? s casing t

/-- Between this place and a later one, the group matched. -/
def close (start : Spot) (number : Nat) (s : Spot) : Spot :=
  let taken := (s.before.take (s.before.length - start.before.length)).reverse
  { s with matched := (number, taken) :: s.matched }

end Spot

/-- The character belongs to the class. -/
def Category.holds (ascii : Bool) : Category → Char → Bool
  | digit, c => if ascii then c.isDigit else Text.isDigit c
  | blank, c => if ascii then c ∈ [' ', '\t', '\n', '\r', '\x0b', '\x0c'] else Text.isBlank c
  | word, c => if ascii then c.isAlphanum || c == '_' else Text.isWordChar c

/-- The lower-case letter `n` of the character is a member. -/
def Member.holds (modes : Modes) (c : Char) : Member → Bool
  | point m => modes.casing.isMember m (modes.casing.lower c.toNat)
  | range low high => modes.casing.inRange low high (modes.casing.lower c.toNat)
  | category k negated => k.holds modes.ascii c != negated

/-- The place is here. -/
def Place.holds (modes : Modes) (p : Place) (s : Spot) : Bool :=
  let isWord := fun c => Category.word.holds modes.ascii c
  match p with
  | lineStart => s.before = [] || modes.multiline && s.before.head? = some '\n'
  | lineEnd => s.after = [] || s.after = ['\n'] || modes.multiline && s.after.head? = some '\n'
  | textStart => s.before = []
  | textEnd => s.after = []
  | boundary => s.before.head?.any isWord != s.after.head?.any isWord
  | inside =>
      (s.before ≠ [] || s.after ≠ []) && s.before.head?.any isWord == s.after.head?.any isWord

/-- One more is allowed by the upper bound. -/
def allows (count : Nat) : Option Nat → Bool
  | none => true
  | some most => count < most

/-- Repeats the body as often as it matches, then gives back. `last` is the number of characters
that were left at the last try beyond the least count; a try that takes nothing is the last. -/
def greedily (body : Rest → Rest) (least : Nat) (most : Option Nat) (rest : Rest) :
    Nat → Nat → Option Nat → Rest
  | 0, _, _ => rest
  | fuel + 1, count, last => fun s =>
      if count < least then body (greedily body least most rest fuel (count + 1) last) s
      else if allows count most && last ≠ some s.after.length then
        match body (greedily body least most rest fuel (count + 1) (some s.after.length)) s with
        | some e => some e
        | none => rest s
      else rest s

/-- Repeats the body as seldom as the rest allows. -/
def lazily (body : Rest → Rest) (least : Nat) (most : Option Nat) (rest : Rest) :
    Nat → Nat → Option Nat → Rest
  | 0, _, _ => rest
  | fuel + 1, count, last => fun s =>
      if count < least then body (lazily body least most rest fuel (count + 1) last) s
      else
        match rest s with
        | some e => some e
        | none =>
            if allows count most && last ≠ some s.after.length then
              body (lazily body least most rest fuel (count + 1) (some s.after.length)) s
            else none

/-- Repeats the first match of the body as often as there is one, and gives nothing back. -/
def possessively (body : Rest → Rest) (least : Nat) (most : Option Nat) (rest : Rest) :
    Nat → Nat → Option Nat → Rest
  | 0, _, _ => rest
  | fuel + 1, count, last => fun s =>
      if count < least then
        match body some s with
        | some e => possessively body least most rest fuel (count + 1) last e
        | none => none
      else if allows count most && last ≠ some s.after.length then
        match body some s with
        | some e => possessively body least most rest fuel (count + 1) (some s.after.length) e
        | none => rest s
      else rest s

/-- Matches a pattern here and the rest after it. -/
def run (modes : Modes) : Pattern → Rest → Rest
  | empty, rest => rest
  | point n, rest => fun s => (s.forward? fun c => modes.casing.same n c.toNat).bind rest
  | notPoint n, rest => fun s => (s.forward? fun c => !modes.casing.same n c.toNat).bind rest
  | any, rest => fun s => (s.forward? fun c => modes.dotAll || c ≠ '\n').bind rest
  | set negated members, rest => fun s =>
      (s.forward? fun c => (members.any fun m => m.holds modes c) != negated).bind rest
  | place p, rest => fun s => if p.holds modes s then rest s else none
  | next a b, rest => run modes a (run modes b rest)
  | either a b, rest => fun s =>
      match run modes a rest s with
      | some e => some e
      | none => run modes b rest s
  | several greed least most body, rest => fun s =>
      let fuel := least + s.after.length + 2
      match greed with
      | .greedy => greedily (run modes body) least most rest fuel 0 none s
      | .lazy => lazily (run modes body) least most rest fuel 0 none s
      | .possessive => possessively (run modes body) least most rest fuel 0 none s
  | group none on off body, rest => run (modes.within on off) body rest
  | group (some number) on off body, rest => fun s =>
      run (modes.within on off) body (fun e => rest (s.close number e)) s
  | atomic body, rest => fun s => (run modes body some s).bind rest
  | ahead false body, rest => fun s =>
      (run modes body some s).bind fun e => rest { s with matched := e.matched }
  | ahead true body, rest => fun s =>
      match run modes body some s with
      | some _ => none
      | none => rest s
  | behind false body, rest => fun s =>
      ((s.back? body.width.least).bind (run modes body some)).bind fun e =>
        rest { s with matched := e.matched }
  | behind true body, rest => fun s =>
      match (s.back? body.width.least).bind (run modes body some) with
      | some _ => none
      | none => rest s
  | again number _, rest => fun s =>
      (s.matched.lookup number).bind fun t => (s.through? modes.casing t).bind rest
  | ifMatched number yes none, rest => fun s =>
      if (s.matched.lookup number).isSome then run modes yes rest s else rest s
  | ifMatched number yes (some no), rest => fun s =>
      if (s.matched.lookup number).isSome then run modes yes rest s else run modes no rest s

/-- The pattern matches at this place or a later one. -/
def searchFrom (modes : Modes) (p : Pattern) (before : Text) : Text → Bool
  | [] => (run modes p some ⟨before, [], []⟩).isSome
  | c :: after =>
      (run modes p some ⟨before, c :: after, []⟩).isSome
        || searchFrom modes p (c :: before) after

/-- The pattern matches somewhere in the text. -/
def occursIn (modes : Modes) (p : Pattern) (t : Text) : Bool :=
  searchFrom modes p [] t

end PipeShell.Pattern
