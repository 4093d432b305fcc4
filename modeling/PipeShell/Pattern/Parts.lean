import PipeShell.Number.Numeral
import PipeShell.Pattern.Escape
import PipeShell.Text.Identifier

/-!
# Sets, bounds and modes

The parts of a pattern that hold no pattern: sets in brackets, the bounds of a repetition, the
letters that turn modes on and off, and the names of groups.
-/

namespace PipeShell.Pattern.Read

/-! ## Sets -/

/-- The member that a symbol of a set writes. -/
def setMember (symbol : Text) : Read Member :=
  match symbol with
  | ['\\', c] => setEscape c
  | c :: _ => return .point c.toNat
  | [] => return .point 0

/-- The members of a set up to its closing bracket, the last one first; a bracket that comes first
is a member. `start` is the position of the opening bracket. -/
def setMembers (start : Nat) : Nat → List Member → Read (List Member)
  | 0, _ => faultAt "unterminated character set" start
  | fuel + 1, members => do
      match ← take with
      | none => faultAt "unterminated character set" start
      | some this =>
          if this = [']'] ∧ members ≠ [] then return members
          else
            let low ← setMember this
            if ← skip '-' then
              match ← take with
              | none => faultAt "unterminated character set" start
              | some that =>
                  if that = [']'] then return .point 45 :: low :: members
                  else
                    let high ← setMember that
                    let bad := fault ("bad character range " ++ this ++ "-" ++ that)
                      (this.length + 1 + that.length)
                    match low, high with
                    | .point m, .point n =>
                        if n < m then bad else setMembers start fuel (.range m n :: members)
                    | _, _ => bad
            else setMembers start fuel (low :: members)

/-- A set after its opening bracket. -/
def setPattern : Read Pattern := do
  let start := (← position) - 1
  let negated ← skip '^'
  let members := (← setMembers start ((← get).rest.length + 1) []).reverse.eraseDups
  match members with
  | [.point n] => return if negated then .notPoint n else .point n
  | _ => return .set negated members

/-! ## Repetition -/

/-- No bound reaches this one. -/
def maxRepeat : Nat := (1 <<< 32) - 1

/-- A bound in decimal digits, if there are any. -/
def bound (digits : Text) : Read (Option Nat) :=
  if digits = [] then return none
  else
    match Numeral.read (digits.map digitOf) with
    | .error f => fun _ => .error (.failure f)
    | .ok n => if maxRepeat ≤ n then fun _ => .error (.failure .repetitionTooLarge) else return some n

/-- The bounds after an opening brace; without a closing brace they are no bounds. -/
def bounds? : Read (Option (Nat × Option Nat)) := do
  let here := (← position)
  let rest := (← get).rest
  if (← peek) = some ['}'] then return none
  else
    let low ← takeWhile Char.isDigit rest.length
    let high ← if ← skip ',' then takeWhile Char.isDigit rest.length else pure low
    if ← skip '}' then
      let least ← bound low
      let most ← bound high
      if most.any (· < least.getD 0) then faultAt "min repeat greater than max repeat" here
      return some (least.getD 0, most)
    else
      goTo rest here
      return none

/-- The bounds that a repetition sign stands for. -/
def signBounds? (sign : Char) : Read (Option (Nat × Option Nat)) :=
  match sign with
  | '?' => return some (0, some 1)
  | '*' => return some (0, none)
  | '+' => return some (1, none)
  | _ => bounds?

/-- How much a repetition takes, after its bounds. -/
def greed : Read Greed := do
  if ← skip '?' then return .lazy
  else if ← skip '+' then return .possessive
  else return .greedy

/-- Repeats the last of the items, the last of which comes first. `back` is the position of the sign
of the repetition. -/
def repeatLast (items : List Pattern) (sign : Nat) (least : Nat) (most : Option Nat) :
    Read (List Pattern) := do
  match items with
  | [] | .place _ :: _ => faultAt "nothing to repeat" sign
  | .several _ _ _ _ :: _ => faultAt "multiple repeat" sign
  | item :: before => return .several (← greed) least most item :: before

/-! ## Modes -/

/-- The mode of a letter. -/
def mode? : Char → Option Modes
  | 'i' => some { ignoreCase := true }
  | 'L' => some {}
  | 'm' => some { multiline := true }
  | 's' => some { dotAll := true }
  | 'x' => some { verbose := true }
  | 'a' => some { ascii := true }
  | 't' => some { template := true }
  | 'u' => some { unicode := true }
  | _ => none

/-- The letter chooses a character set. -/
def isSetMode (c : Char) : Bool :=
  c = 'a' || c = 'u' || c = 'L'

/-- A symbol that is no mode letter where one is due. -/
def badMode {α : Type} (symbol : Text) (due : Text) : Read α :=
  match symbol with
  | [c] => if Text.isLetter c then fault "unknown flag" 1 else fault due 1
  | _ => fault due symbol.length

/-- The modes that letters turn on, from a letter on, and the symbol that ends them. -/
def modesOn (letter : Char) (on : Modes) : Nat → Read (Modes × Char)
  | 0 => fault "missing -, : or )"
  | fuel + 1 => do
      if letter = 'L' then fault "bad inline flags: cannot use 'L' flag with a str pattern"
      else
        let on := on.union ((mode? letter).getD {})
        if isSetMode letter ∧ on.ascii ∧ on.unicode then
          fault "bad inline flags: flags 'a', 'u' and 'L' are incompatible"
        else
          match ← take with
          | none => fault "missing -, : or )"
          | some [c] =>
              if c = ')' ∨ c = '-' ∨ c = ':' then return (on, c)
              else if (mode? c).isSome then modesOn c on fuel
              else badMode [c] "missing -, : or )"
          | some symbol => badMode symbol "missing -, : or )"

/-- The modes that letters turn off, from a letter on, up to the colon. -/
def modesOff (letter : Char) (off : Modes) : Nat → Read Modes
  | 0 => fault "missing :"
  | fuel + 1 => do
      if isSetMode letter then fault "bad inline flags: cannot turn off flags 'a', 'u' and 'L'"
      else
        let off := off.union ((mode? letter).getD {})
        match ← take with
        | none => fault "missing :"
        | some [':'] => return off
        | some [c] => if (mode? c).isSome then modesOff c off fuel else badMode [c] "missing :"
        | some symbol => badMode symbol "missing :"

/-- The modes that a group turns off, after the minus sign. -/
def modesOffFirst : Read Modes := do
  match ← take with
  | none => fault "missing flag"
  | some [c] =>
      if (mode? c).isSome then modesOff c {} ((← get).rest.length + 1)
      else badMode [c] "missing flag"
  | some symbol => badMode symbol "missing flag"

/-- The modes that a group turns on and off, from its first letter on; none when the letters stand
alone in parentheses and so turn modes on for the whole pattern. -/
def modes? (first : Char) : Read (Option (Modes × Modes)) := do
  let (on, ending) ← if first = '-' then pure ({}, '-')
    else modesOn first {} ((← get).rest.length + 1)
  if ending = ')' then
    modify fun r => { r with modes := r.modes.union on }
    return none
  else if on.template then fault "bad inline flags: cannot turn on global flag" 1
  else
    let off ← if ending = '-' then modesOffFirst else pure {}
    if off.template then fault "bad inline flags: cannot turn off global flag" 1
    else if on.inter off ≠ {} then fault "bad inline flags: flag turned on and off" 1
    else return some (on, off)

/-! ## Groups -/

/-- A name of a group, which has to be an identifier. -/
def groupName (ending : Char) : Read Text := do
  let name ← takeName ending "group name"
  if Text.isIdentifier name then return name
  else fault ("bad character in group name " ++ Text.quoted name) (name.length + 1)

/-- The number of a group by its name. -/
def numberOfName (name : Text) : Read Nat := do
  match (← get).names.lookup name with
  | some number => return number
  | none => fault ("unknown group name " ++ Text.quoted name) (name.length + 1)

/-- Opens a group and gives its number. -/
def openGroup (name : Option Text) : Read Nat := do
  let r ← get
  let number := r.groupCount
  match name with
  | none => modify fun r => { r with groups := r.groups ++ [none] }
  | some name =>
      match r.names.lookup name with
      | some former =>
          fault ("redefinition of group name " ++ Text.quoted name ++ " as group "
            ++ Text.ofNat number ++ "; was group " ++ Text.ofNat former) (name.length + 1)
      | none =>
          modify fun r =>
            { r with groups := r.groups ++ [none], names := (name, number) :: r.names }
  return number

/-- Closes a group, whose width is known from then on. -/
def closeGroup (number : Nat) (body : Pattern) : Read Unit :=
  modify fun r => { r with groups := r.groups.set (number - 1) (some body.width) }

/-- No group number reaches this one. -/
def maxGroups : Nat := 1073741823

/-- Refuses a number of a group that, inside a look behind, does not stand before it. -/
def checkBehind (number : Nat) : Read Unit := do
  let r ← get
  match r.behindGroups with
  | none => return
  | some outside =>
      if (r.closedWidth? number).isNone then fault "cannot refer to an open group"
      else if outside ≤ number then
        fault "cannot refer to group defined in the same lookbehind subpattern"

/-- The number of the group on which a condition hangs, given by name or number. -/
def conditionGroup : Read Nat := do
  let name ← takeName ')' "group name"
  let number ←
    if Text.isIdentifier name then numberOfName name
    else
      match Numeral.integer? name with
      | some (.ofNat 0) => fault "bad group number" (name.length + 1)
      | some (.ofNat n) =>
          if maxGroups ≤ n then
            fault ("invalid group reference " ++ Text.ofNat n) (name.length + 1)
          else
            let r ← get
            if (r.conditions.lookup n).isNone then
              modify fun r =>
                { r with conditions := r.conditions ++ [(n, r.position - name.length - 1)] }
            pure n
      | _ => fault ("bad character in group name " ++ Text.quoted name) (name.length + 1)
  checkBehind number
  return number

end PipeShell.Pattern.Read
