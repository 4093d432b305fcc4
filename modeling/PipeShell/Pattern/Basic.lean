import PipeShell.Pattern.Casing

/-!
# Search patterns

The tree of a search pattern. A sequence is a chain of `then` that ends in `empty`, so that the tree
needs no lists of patterns. A literal is a code point, which need not be a character.
-/

namespace PipeShell.Pattern

/-- The modes of a pattern or of a part of it. -/
structure Modes where
  ignoreCase : Bool := false
  multiline : Bool := false
  dotAll : Bool := false
  verbose : Bool := false
  ascii : Bool := false
  unicode : Bool := false
  template : Bool := false
  deriving DecidableEq, Repr

namespace Modes

/-- The modes of either. -/
def union (a b : Modes) : Modes where
  ignoreCase := a.ignoreCase || b.ignoreCase
  multiline := a.multiline || b.multiline
  dotAll := a.dotAll || b.dotAll
  verbose := a.verbose || b.verbose
  ascii := a.ascii || b.ascii
  unicode := a.unicode || b.unicode
  template := a.template || b.template

/-- The modes of both. -/
def inter (a b : Modes) : Modes where
  ignoreCase := a.ignoreCase && b.ignoreCase
  multiline := a.multiline && b.multiline
  dotAll := a.dotAll && b.dotAll
  verbose := a.verbose && b.verbose
  ascii := a.ascii && b.ascii
  unicode := a.unicode && b.unicode
  template := a.template && b.template

/-- The modes of the first that the second lacks. -/
def diff (a b : Modes) : Modes where
  ignoreCase := a.ignoreCase && !b.ignoreCase
  multiline := a.multiline && !b.multiline
  dotAll := a.dotAll && !b.dotAll
  verbose := a.verbose && !b.verbose
  ascii := a.ascii && !b.ascii
  unicode := a.unicode && !b.unicode
  template := a.template && !b.template

/-- The modes inside a group that turns some on and some off. A character set that the group names
replaces the one outside. -/
def within (outer on off : Modes) : Modes :=
  let outer := if on.ascii || on.unicode then { outer with ascii := false, unicode := false }
    else outer
  (outer.union on).diff off

/-- How the modes compare letters. -/
def casing (m : Modes) : Casing :=
  if !m.ignoreCase then .exact else if m.ascii then .ascii else .unicode

end Modes

/-- The classes of characters that a pattern can name. -/
inductive Category
  | digit
  | blank
  | word
  deriving DecidableEq, Repr

/-- A member of a set: a code point, a range of them, or a class or its complement. -/
inductive Member
  | point (n : Nat)
  | range (low high : Nat)
  | category (c : Category) (negated : Bool)
  deriving DecidableEq, Repr

/-- The places that a pattern can name. -/
inductive Place
  | lineStart
  | lineEnd
  | textStart
  | textEnd
  | boundary
  | inside
  deriving DecidableEq, Repr

/-- How much a repetition takes: as much as it can, as little as it can, or as much as it can
without giving back. -/
inductive Greed
  | greedy
  | lazy
  | possessive
  deriving DecidableEq, Repr

/-- The least and greatest number of characters that a pattern matches. -/
structure Width where
  least : Nat
  most : Nat
  deriving DecidableEq, Repr

end Pattern

/-- A search pattern. -/
inductive Pattern
  /-- Matches without taking a character. -/
  | empty
  /-- One code point. -/
  | point (n : Nat)
  /-- Any character but the code point. -/
  | notPoint (n : Nat)
  /-- Any character, of which a line feed is one only if the modes say so. -/
  | any
  /-- A member of the set, or a character that is none. -/
  | set (negated : Bool) (members : List Pattern.Member)
  /-- A place between characters. -/
  | place (p : Pattern.Place)
  /-- One pattern, then another. -/
  | next (first rest : Pattern)
  /-- One pattern, or else another. -/
  | either (first second : Pattern)
  /-- The pattern several times; no upper bound is `none`. -/
  | several (greed : Pattern.Greed) (least : Nat) (most : Option Nat) (body : Pattern)
  /-- A group, which may be numbered and may change the modes. -/
  | group (number : Option Nat) (on off : Pattern.Modes) (body : Pattern)
  /-- The first match of the pattern and no other. -/
  | atomic (body : Pattern)
  /-- The pattern matches ahead. -/
  | ahead (negated : Bool) (body : Pattern)
  /-- The pattern matches behind. -/
  | behind (negated : Bool) (body : Pattern)
  /-- What the group of this number matched, whose width is known. -/
  | again (number : Nat) (width : Pattern.Width)
  /-- One pattern if the group of this number matched, and else the other. -/
  | ifMatched (number : Nat) (yes : Pattern) (no : Option Pattern)
  deriving Repr

namespace Pattern

/-- The patterns one after another. -/
def ofList : List Pattern → Pattern
  | [] => empty
  | p :: rest => next p (ofList rest)

/-- Widths are not told apart from this one on. -/
def maxWidth : Nat := 1 <<< 64

/-- The width of a pattern. -/
def width : Pattern → Width
  | empty | place _ | ahead _ _ | behind _ _ => ⟨0, 0⟩
  | point _ | notPoint _ | any | set _ _ => ⟨1, 1⟩
  | next a b =>
      ⟨min (a.width.least + b.width.least) maxWidth, min (a.width.most + b.width.most) maxWidth⟩
  | either a b => ⟨min a.width.least b.width.least, max a.width.most b.width.most⟩
  | several _ least most body =>
      let w := body.width
      ⟨min (w.least * least) maxWidth,
        match most with
        | none => if w.most = 0 then 0 else maxWidth
        | some n => min (w.most * n) maxWidth⟩
  | group _ _ _ body | atomic body => body.width
  | again _ w => w
  | ifMatched _ yes none => ⟨0, yes.width.most⟩
  | ifMatched _ yes (some no) =>
      ⟨min yes.width.least no.width.least, max yes.width.most no.width.most⟩

end Pattern

end PipeShell
