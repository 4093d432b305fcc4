import PipeShell.Pattern.Parts

/-!
# Reading patterns

A pattern is a choice of sequences of items. The two readers call each other for groups; each call
takes a symbol or goes from a choice to its sequences, so a small multiple of the length of the
pattern bounds them.
-/

namespace PipeShell.Pattern.Read

/-- The character separates words in verbose mode. -/
def isSpacing (c : Char) : Bool :=
  c ∈ [' ', '\t', '\n', '\r', '\x0b', '\x0c']

/-- Skips to the end of a line. -/
def skipLine : Nat → Read Unit
  | 0 => return
  | fuel + 1 => do
      match ← take with
      | none | some ['\n'] => return
      | some _ => skipLine fuel

/-- Skips a comment that began at `start`, up to its closing parenthesis. -/
def skipComment (start : Nat) : Nat → Read Unit
  | 0 => return
  | fuel + 1 => do
      match ← take with
      | none => faultAt "missing ), unterminated comment" start
      | some [')'] => return
      | some _ => skipComment start fuel

/-- Takes the parenthesis that closes a group. -/
def close (start : Nat) : Read Unit := do
  unless ← skip ')' do faultAt "missing ), unterminated subpattern" start

/-- What kind of group opens. -/
inductive Opening
  /-- A comment or a change of the modes of the whole pattern: nothing to match. -/
  | nothing
  /-- Matches what a named group matched. -/
  | again (p : Pattern)
  /-- A group that may have a name. -/
  | numbered (name : Option Text)
  /-- A group without a number that may change the modes. -/
  | plain (on off : Modes)
  | atomic
  | ahead (negated : Bool)
  | behind (negated : Bool)
  | condition

/-- The rest of the opening `(?P`. -/
def openingByName : Read Opening := do
  if ← skip '<' then return .numbered (some (← groupName '>'))
  else if ← skip '=' then
    let name ← groupName ')'
    return .again (← reference (← numberOfName name) (name.length + 1))
  else
    match ← take with
    | none => fault "unexpected end of pattern"
    | some s => fault ("unknown extension ?P" ++ s) (s.length + 2)

/-- The rest of the opening `(?<`. -/
def openingBehind : Read Opening := do
  match ← take with
  | none => fault "unexpected end of pattern"
  | some ['='] => return .behind false
  | some ['!'] => return .behind true
  | some s => fault ("unknown extension ?<" ++ s) (s.length + 2)

/-- The kind of the group that opened at `start`. Modes for the whole pattern may only come first. -/
def opening (start : Nat) (isFirst : Bool) : Read Opening := do
  if !(← skip '?') then return .numbered none
  else
    match ← take with
    | none => fault "unexpected end of pattern"
    | some ['P'] => openingByName
    | some [':'] => return .plain {} {}
    | some ['#'] => do
        skipComment start ((← get).rest.length + 1)
        return .nothing
    | some ['='] => return .ahead false
    | some ['!'] => return .ahead true
    | some ['<'] => openingBehind
    | some ['('] => return .condition
    | some ['>'] => return .atomic
    | some s =>
        match s with
        | [c] =>
            if c = '-' ∨ (mode? c).isSome then
              match ← modes? c with
              | some (on, off) => return .plain on off
              | none =>
                  if isFirst then return .nothing
                  else faultAt "global flags not at the start of the expression" start
            else fault ("unknown extension ?" ++ s) (s.length + 1)
        | _ => fault ("unknown extension ?" ++ s) (s.length + 1)

/-- Runs a reader inside a look behind, where only groups that stand before it can be named. -/
def insideBehind {α : Type} (read : Read α) : Read α := do
  let former := (← get).behindGroups
  if former.isNone then modify fun r => { r with behindGroups := some r.groupCount }
  let result ← read
  if former.isNone then modify fun r => { r with behindGroups := none }
  return result

mutual

/-- A choice of sequences. The modes of the whole pattern count again for each sequence at the
outermost level. -/
def choice (fuel : Nat) (verbose outermost isFirst : Bool) : Read Pattern :=
  match fuel with
  | 0 => return empty
  | fuel + 1 => do
      let first ← sequence fuel verbose (outermost && isFirst) []
      if ← skip '|' then
        let modes := (← get).modes
        let verbose := if outermost then modes.verbose else verbose
        return either first (← choice fuel verbose outermost false)
      else return first

/-- A sequence of items; those before come last first. -/
def sequence (fuel : Nat) (verbose isFirst : Bool) (items : List Pattern) : Read Pattern :=
  match fuel with
  | 0 => return ofList items.reverse
  | fuel + 1 => do
      match ← peek with
      | none | some ['|'] | some [')'] => return ofList items.reverse
      | some symbol =>
          let start ← position
          let _ ← take
          match symbol with
          | [_, c] => sequence fuel verbose isFirst ((← escape c) :: items)
          | [c] =>
              if verbose && isSpacing c then sequence fuel verbose isFirst items
              else if verbose && c = '#' then do
                skipLine ((← get).rest.length + 1)
                sequence fuel verbose isFirst items
              else if c = '[' then sequence fuel verbose isFirst ((← setPattern) :: items)
              else if c = '?' ∨ c = '*' ∨ c = '+' ∨ c = '{' then
                match ← signBounds? c with
                | none => sequence fuel verbose isFirst (point c.toNat :: items)
                | some (least, most) =>
                    sequence fuel verbose isFirst (← repeatLast items start least most)
              else if c = '.' then sequence fuel verbose isFirst (any :: items)
              else if c = '^' then sequence fuel verbose isFirst (place .lineStart :: items)
              else if c = '$' then sequence fuel verbose isFirst (place .lineEnd :: items)
              else if c = '(' then
                match ← opening start (isFirst && items.isEmpty) with
                | .nothing =>
                    let modes := (← get).modes
                    let verbose := if isFirst then modes.verbose else verbose
                    sequence fuel verbose isFirst items
                | .again p => sequence fuel verbose isFirst (p :: items)
                | .numbered name =>
                    let number ← openGroup name
                    let body ← choice fuel verbose false false
                    close start
                    closeGroup number body
                    sequence fuel verbose isFirst (group (some number) {} {} body :: items)
                | .plain on off =>
                    let body ← choice fuel ((verbose || on.verbose) && !off.verbose) false false
                    close start
                    sequence fuel verbose isFirst (group none on off body :: items)
                | .atomic =>
                    let body ← choice fuel verbose false false
                    close start
                    sequence fuel verbose isFirst (atomic body :: items)
                | .ahead negated =>
                    let body ← choice fuel verbose false false
                    close start
                    sequence fuel verbose isFirst (ahead negated body :: items)
                | .behind negated =>
                    let body ← insideBehind (choice fuel verbose false false)
                    close start
                    sequence fuel verbose isFirst (behind negated body :: items)
                | .condition =>
                    let number ← conditionGroup
                    let yes ← sequence fuel verbose false []
                    if ← skip '|' then
                      let no ← sequence fuel verbose false []
                      if (← peek) = some ['|'] then
                        fault "conditional backref with more than two branches"
                      close start
                      sequence fuel verbose isFirst (ifMatched number yes (some no) :: items)
                    else
                      close start
                      sequence fuel verbose isFirst (ifMatched number yes none :: items)
              else sequence fuel verbose isFirst (point c.toNat :: items)
          | _ => sequence fuel verbose isFirst items

end

/-- A whole pattern, with the modes of the whole. -/
def whole (source : Text) : Read (Pattern × Modes) := do
  goTo source 0
  let p ← choice (4 * source.length + 4) false true true
  let modes := (← get).modes
  if modes.ascii && modes.unicode then
    fun _ => .error (.failure .incompatibleCharacterSets)
  else if (← peek).isSome then fault "unbalanced parenthesis"
  else
    let r ← get
    match r.conditions.find? fun (number, _) => r.groupCount ≤ number with
    | some (number, position) => faultAt ("invalid group reference " ++ Text.ofNat number) position
    | none => return (p, modes)

end PipeShell.Pattern.Read

namespace PipeShell.Pattern

/-- The name of a repetition in a fault. -/
def Greed.name : Greed → Text
  | .greedy => "MAX_REPEAT"
  | .lazy => "MIN_REPEAT"
  | .possessive => "POSSESSIVE_REPEAT"

/-- Refuses what can be read but not be matched: a repetition in template mode, and a look behind
whose width is not fixed or too large. -/
def check (template : Bool) : Pattern → Except Fault Unit
  | empty | point _ | notPoint _ | any | set _ _ | place _ | again _ _ => .ok ()
  | next a b | either a b => do
      check template a
      check template b
  | several greed _ _ body =>
      if template then
        .error (.malformed ("internal: unsupported template operator " ++ greed.name) none)
      else check template body
  | group _ _ _ body | atomic body | ahead _ body => check template body
  | behind _ body =>
      let w := body.width
      if 1 <<< 32 ≤ w.least then .error (.malformed "looks too much behind" none)
      else if w.least ≠ w.most then
        .error (.malformed "look-behind requires fixed-width pattern" none)
      else check template body
  | ifMatched _ yes none => check template yes
  | ifMatched _ yes (some no) => do
      check template yes
      check template no

/-- Reads a pattern that ignores case, with the modes of the whole. -/
def read (source : Text) : Except Fault (Pattern × Modes) := do
  let reading : Reading := { rest := [], modes := { ignoreCase := true } }
  let ((p, modes), _) ← (Read.whole source).run reading
  check modes.template p
  return (p, modes)

end PipeShell.Pattern
