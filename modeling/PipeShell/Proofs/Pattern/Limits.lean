import PipeShell.Pattern.Reader
import PipeShell.Proofs.Store.Action

/-!
# Limits of the reader of patterns

A pattern that is not malformed is refused only when it breaks a limit of the reader: a bound of a
repetition is too long or too large, or two character sets are asked for at once.
-/

namespace PipeShell.Pattern

/-- The fault is malformed text, or a failure because of a limit. -/
def Fault.IsLimit : Fault → Prop
  | malformed _ _ => True
  | failure f => f = .repetitionTooLarge ∨ f = .incompatibleCharacterSets ∨ ∃ n, f = .tooManyDigits n

namespace Read

variable {α β : Type}

/-- The step of the reader fails with no other failures than those of its limits. -/
def Limited (x : Read α) : Prop :=
  ∀ r, Attempt.Gives (x r) (fun _ => True) Fault.IsLimit

/-! ## Steps -/

theorem limited_pure (a : α) : Limited (pure a : Read α) :=
  fun _ => trivial

theorem Limited.bind {x : Read α} {f : α → Read β} (hx : Limited x) (hf : ∀ a, Limited (f a)) :
    Limited (x >>= f) :=
  fun r => (hx r).bind fun out _ => hf out.1 out.2

theorem limited_get : Limited (get : Read Reading) :=
  fun _ => trivial

theorem limited_modify (change : Reading → Reading) : Limited (modify change : Read PUnit) :=
  fun _ => trivial

theorem limited_fault (wording : Text) (back : Nat) : Limited (fault wording back : Read α) :=
  fun _ => trivial

theorem limited_faultAt (wording : Text) (position : Nat) :
    Limited (faultAt wording position : Read α) :=
  fun _ => trivial

theorem limited_ite {c : Prop} [Decidable c] {x y : Read α} (hx : Limited x) (hy : Limited y) :
    Limited (if c then x else y) := by
  split
  · exact hx
  · exact hy

theorem limited_position : Limited position :=
  fun _ => trivial

theorem limited_peek : Limited peek := by
  intro r
  rw [peek]
  split <;> trivial

theorem limited_goTo (rest : Text) (position : Nat) : Limited (goTo rest position) := by
  intro r
  rw [goTo]
  split <;> trivial

theorem limited_take : Limited take := by
  refine limited_get.bind fun r => limited_peek.bind fun s => ?_
  cases s with
  | none => exact limited_pure _
  | some s => exact (limited_goTo _ _).bind fun _ => limited_pure _

theorem limited_skip (c : Char) : Limited (skip c) :=
  limited_peek.bind fun _ =>
    limited_ite (limited_take.bind fun _ => limited_pure _) (limited_pure _)

theorem limited_takeWhile (p : Char → Bool) (n : Nat) : Limited (takeWhile p n) := by
  induction n with
  | zero => exact limited_pure _
  | succ n ih =>
      refine limited_peek.bind fun s => ?_
      split
      · refine limited_ite ?_ (limited_pure _)
        exact limited_take.bind fun _ => ih.bind fun _ => limited_pure _
      · exact limited_pure _

theorem limited_takeUntil (ending : Char) (what : Text) (fuel : Nat) (name : Text) :
    Limited (takeUntil ending what fuel name) := by
  induction fuel generalizing name with
  | zero => exact limited_fault _ _
  | succ fuel ih =>
      refine limited_take.bind fun s => ?_
      cases s with
      | none => exact limited_ite (limited_fault _ _) (limited_fault _ _)
      | some s =>
          exact limited_ite (limited_ite (limited_fault _ _) (limited_pure _)) (ih _)

theorem limited_takeName (ending : Char) (what : Text) : Limited (takeName ending what) :=
  limited_get.bind fun _ => limited_takeUntil _ _ _ _

/-! ## Escapes -/

theorem limited_hexPoint (letter : Char) (count : Nat) : Limited (hexPoint letter count) :=
  (limited_takeWhile _ _).bind fun _ =>
    limited_ite (limited_fault _ _) (limited_ite (limited_pure _) (limited_fault _ _))

theorem limited_namedPoint : Limited namedPoint :=
  (limited_skip _).bind fun _ =>
    limited_ite ((limited_takeName _ _).bind fun _ => limited_fault _ _) (limited_fault _ _)

theorem limited_octalPoint (digits : Text) : Limited (octalPoint digits) :=
  limited_ite (limited_pure _) (limited_fault _ _)

theorem limited_plainPoint (c : Char) : Limited (plainPoint c) := by
  unfold plainPoint
  split
  · exact limited_hexPoint _ _
  · exact limited_hexPoint _ _
  · exact limited_hexPoint _ _
  · exact limited_namedPoint
  · exact limited_ite (limited_fault _ _) (limited_pure _)

theorem limited_setEscape (c : Char) : Limited (setEscape c) := by
  rw [setEscape]
  split
  · exact limited_pure _
  · exact limited_pure _
  · refine limited_ite ?_ ((limited_plainPoint _).bind fun _ => limited_pure _)
    exact (limited_takeWhile _ _).bind fun _ => (limited_octalPoint _).bind fun _ => limited_pure _

theorem limited_reference (number back : Nat) : Limited (reference number back) := by
  refine limited_get.bind fun r => ?_
  split
  · exact limited_fault _ _
  · split
    · exact limited_ite (limited_fault _ _) (limited_pure _)
    · exact limited_pure _

theorem limited_numberedReference (digits : Text) : Limited (numberedReference digits) :=
  limited_get.bind fun _ => limited_ite (limited_reference _ _) (limited_fault _ _)

theorem limited_digitEscape (c : Char) : Limited (digitEscape c) := by
  refine (limited_takeWhile _ _).bind fun digits => ?_
  split
  · exact limited_numberedReference _
  · refine limited_ite ?_ (limited_numberedReference _)
    refine (limited_takeWhile _ _).bind fun more => ?_
    split
    · exact limited_numberedReference _
    · exact (limited_octalPoint _).bind fun _ => limited_pure _

theorem limited_escape (c : Char) : Limited (escape c) := by
  rw [escape]
  split
  · exact limited_pure _
  · exact limited_pure _
  · exact limited_pure _
  · refine limited_ite ((limited_takeWhile _ _).bind fun _ => limited_pure _) ?_
    exact limited_ite (limited_digitEscape _) ((limited_plainPoint _).bind fun _ => limited_pure _)

/-! ## Sets and repetitions -/

theorem limited_setMember (symbol : Text) : Limited (setMember symbol) := by
  unfold setMember
  split
  · exact limited_setEscape _
  · exact limited_pure _
  · exact limited_pure _

theorem limited_setMembers (start fuel : Nat) (members : List Member) :
    Limited (setMembers start fuel members) := by
  induction fuel generalizing members with
  | zero => exact limited_faultAt _ _
  | succ fuel ih =>
      refine limited_take.bind fun this => ?_
      cases this with
      | none => exact limited_faultAt _ _
      | some this =>
          refine limited_ite (limited_pure _) ?_
          refine (limited_setMember _).bind fun low => (limited_skip _).bind fun _ => ?_
          refine limited_ite (limited_take.bind fun that => ?_) (ih _)
          cases that with
          | none => exact limited_faultAt _ _
          | some that =>
              refine limited_ite (limited_pure _) ((limited_setMember _).bind fun high => ?_)
              dsimp only
              split
              · exact limited_ite (limited_fault _ _) (ih _)
              · exact limited_fault _ _

theorem limited_setPattern : Limited setPattern := by
  refine limited_position.bind fun _ => (limited_skip _).bind fun _ => limited_get.bind fun _ => ?_
  refine (limited_setMembers _ _ _).bind fun members => ?_
  dsimp only
  split <;> exact limited_pure _

/-- A bound is where the limits of numerals and of repetitions count. -/
theorem limited_bound (digits : Text) : Limited (bound digits) := by
  refine limited_ite (limited_pure _) ?_
  split
  · rename_i f hf
    intro r
    rw [Numeral.read] at hf
    split at hf
    · cases hf
    · cases hf
      exact Or.inr (Or.inr ⟨_, rfl⟩)
  · refine limited_ite (fun r => ?_) (limited_pure _)
    exact Or.inl rfl

theorem limited_bounds? : Limited bounds? := by
  refine limited_position.bind fun here => limited_get.bind fun r => limited_peek.bind fun s => ?_
  refine limited_ite (limited_pure _) ?_
  refine (limited_takeWhile _ _).bind fun low => (limited_skip _).bind fun comma => ?_
  have hrest (high : Text) : Limited (do
      if ← skip '}' then
        let least ← bound low
        let most ← bound high
        if most.any (· < least.getD 0) then faultAt "min repeat greater than max repeat" here
        return some (least.getD 0, most)
      else
        goTo r.rest here
        return none) := by
    refine (limited_skip _).bind fun closed => ?_
    refine limited_ite ?_ ((limited_goTo _ _).bind fun _ => limited_pure _)
    refine (limited_bound _).bind fun least => (limited_bound _).bind fun most => ?_
    exact limited_ite ((limited_faultAt _ _).bind fun _ => limited_pure _) (limited_pure _)
  exact limited_ite ((limited_takeWhile _ _).bind hrest) (hrest _)

theorem limited_signBounds? (sign : Char) : Limited (signBounds? sign) := by
  unfold signBounds?
  split
  · exact limited_pure _
  · exact limited_pure _
  · exact limited_pure _
  · exact limited_bounds?

theorem limited_greed : Limited greed := by
  refine (limited_skip _).bind fun _ => limited_ite (limited_pure _) ?_
  exact (limited_skip _).bind fun _ => limited_ite (limited_pure _) (limited_pure _)

theorem limited_repeatLast (items : List Pattern) (sign least : Nat) (most : Option Nat) :
    Limited (repeatLast items sign least most) := by
  unfold repeatLast
  split
  · exact limited_faultAt _ _
  · exact limited_faultAt _ _
  · exact limited_faultAt _ _
  · exact limited_greed.bind fun _ => limited_pure _

/-! ## Modes -/

theorem limited_badMode (symbol due : Text) : Limited (badMode symbol due : Read α) := by
  unfold badMode
  split
  · exact limited_ite (limited_fault _ _) (limited_fault _ _)
  · exact limited_fault _ _

theorem limited_modesOn (letter : Char) (on : Modes) (fuel : Nat) :
    Limited (modesOn letter on fuel) := by
  induction fuel generalizing letter on with
  | zero => exact limited_fault _ _
  | succ fuel ih =>
      refine limited_ite (limited_fault _ _) (limited_ite (limited_fault _ _) ?_)
      refine limited_take.bind fun s => ?_
      split
      · exact limited_fault _ _
      · exact limited_ite (limited_pure _) (limited_ite (ih _ _) (limited_badMode _ _))
      · exact limited_badMode _ _

theorem limited_modesOff (letter : Char) (off : Modes) (fuel : Nat) :
    Limited (modesOff letter off fuel) := by
  induction fuel generalizing letter off with
  | zero => exact limited_fault _ _
  | succ fuel ih =>
      refine limited_ite (limited_fault _ _) ?_
      refine limited_take.bind fun s => ?_
      split
      · exact limited_fault _ _
      · exact limited_pure _
      · exact limited_ite (ih _ _) (limited_badMode _ _)
      · exact limited_badMode _ _

theorem limited_modesOffFirst : Limited modesOffFirst := by
  refine limited_take.bind fun s => ?_
  split
  · exact limited_fault _ _
  · exact limited_ite (limited_get.bind fun _ => limited_modesOff _ _ _) (limited_badMode _ _)
  · exact limited_badMode _ _

theorem limited_modes? (first : Char) : Limited (modes? first) := by
  unfold modes?
  have hoff (on off : Modes) : Limited (
      if off.template then fault "bad inline flags: cannot turn off global flag" 1
      else if on.inter off ≠ {} then fault "bad inline flags: flag turned on and off" 1
      else return some (on, off)) :=
    limited_ite (limited_fault _ _) (limited_ite (limited_fault _ _) (limited_pure _))
  have hon (on : Modes) (ending : Char) : Limited (do
      if ending = ')' then
        modify fun r => { r with modes := r.modes.union on }
        return none
      else if on.template then fault "bad inline flags: cannot turn on global flag" 1
      else
        let off ← if ending = '-' then modesOffFirst else pure {}
        if off.template then fault "bad inline flags: cannot turn off global flag" 1
        else if on.inter off ≠ {} then fault "bad inline flags: flag turned on and off" 1
        else return some (on, off)) := by
    refine limited_ite ((limited_modify _).bind fun _ => limited_pure _) ?_
    refine limited_ite (limited_fault _ _) ?_
    exact limited_ite (limited_modesOffFirst.bind (hoff _)) ((limited_pure _).bind (hoff _))
  refine limited_ite ((limited_pure _).bind fun read => hon read.1 read.2) ?_
  exact limited_get.bind fun _ => (limited_modesOn _ _ _).bind fun read => hon read.1 read.2

/-! ## Groups -/

theorem limited_groupName (ending : Char) : Limited (groupName ending) :=
  (limited_takeName _ _).bind fun _ => limited_ite (limited_pure _) (limited_fault _ _)

theorem limited_numberOfName (name : Text) : Limited (numberOfName name) := by
  refine limited_get.bind fun r => ?_
  split
  · exact limited_pure _
  · exact limited_fault _ _

theorem limited_openGroup (name : Option Text) : Limited (openGroup name) := by
  refine limited_get.bind fun r => ?_
  cases name with
  | none => exact (limited_modify _).bind fun _ => limited_pure _
  | some name =>
      dsimp only
      split
      · exact (limited_fault _ _).bind fun _ => limited_pure _
      · exact (limited_modify _).bind fun _ => limited_pure _

theorem limited_closeGroup (number : Nat) (body : Pattern) : Limited (closeGroup number body) :=
  limited_modify _

theorem limited_checkBehind (number : Nat) : Limited (checkBehind number) := by
  refine limited_get.bind fun r => ?_
  split
  · exact limited_pure _
  · exact limited_ite (limited_fault _ _) (limited_ite (limited_fault _ _) (limited_pure _))

theorem limited_conditionGroup : Limited conditionGroup := by
  refine (limited_takeName _ _).bind fun name => ?_
  have hrest (number : Nat) : Limited (do checkBehind number; return number) :=
    (limited_checkBehind number).bind fun _ => limited_pure number
  refine limited_ite ((limited_numberOfName _).bind hrest) ?_
  split
  · exact (limited_fault _ _).bind hrest
  · refine limited_ite ((limited_fault _ _).bind hrest) (limited_get.bind fun r => ?_)
    exact limited_ite ((limited_modify _).bind fun _ => hrest _) (hrest _)
  · exact (limited_fault _ _).bind hrest

theorem limited_skipLine (fuel : Nat) : Limited (skipLine fuel) := by
  induction fuel with
  | zero => exact limited_pure _
  | succ fuel ih =>
      refine limited_take.bind fun s => ?_
      split
      · exact limited_pure _
      · exact limited_pure _
      · exact ih

theorem limited_skipComment (start fuel : Nat) : Limited (skipComment start fuel) := by
  induction fuel with
  | zero => exact limited_pure _
  | succ fuel ih =>
      refine limited_take.bind fun s => ?_
      split
      · exact limited_faultAt _ _
      · exact limited_pure _
      · exact ih

theorem limited_close (start : Nat) : Limited (close start) :=
  (limited_skip _).bind fun _ => limited_ite (limited_pure _) (limited_faultAt _ _)

theorem limited_openingByName : Limited openingByName := by
  refine (limited_skip _).bind fun _ => limited_ite ?_ ?_
  · exact (limited_groupName _).bind fun _ => limited_pure _
  · refine (limited_skip _).bind fun _ => limited_ite ?_ ?_
    · refine (limited_groupName _).bind fun name => (limited_numberOfName _).bind fun number => ?_
      exact (limited_reference _ _).bind fun _ => limited_pure _
    · refine limited_take.bind fun s => ?_
      cases s with
      | none => exact limited_fault _ _
      | some s => exact limited_fault _ _

theorem limited_openingBehind : Limited openingBehind := by
  refine limited_take.bind fun s => ?_
  split
  · exact limited_fault _ _
  · exact limited_pure _
  · exact limited_pure _
  · exact limited_fault _ _

theorem limited_opening (start : Nat) (isFirst : Bool) : Limited (opening start isFirst) := by
  refine (limited_skip _).bind fun _ => limited_ite (limited_pure _) ?_
  refine limited_take.bind fun s => ?_
  split
  · exact limited_fault _ _
  · exact limited_openingByName
  · exact limited_pure _
  · exact limited_get.bind fun _ => (limited_skipComment _ _).bind fun _ => limited_pure _
  · exact limited_pure _
  · exact limited_pure _
  · exact limited_openingBehind
  · exact limited_pure _
  · exact limited_pure _
  · split
    · refine limited_ite ((limited_modes? _).bind fun modes => ?_) (limited_fault _ _)
      cases modes with
      | none => exact limited_ite (limited_pure _) (limited_faultAt _ _)
      | some _ => exact limited_pure _
    · exact limited_fault _ _

theorem limited_insideBehind {read : Read α} (h : Limited read) : Limited (insideBehind read) := by
  refine limited_get.bind fun r => ?_
  have hend (result : α) : Limited (do
      if r.behindGroups.isNone then modify fun r => { r with behindGroups := none }
      return result) :=
    limited_ite ((limited_modify _).bind fun _ => limited_pure _) (limited_pure _)
  exact limited_ite ((limited_modify _).bind fun _ => h.bind hend) (h.bind hend)

/-! ## Patterns -/

/-- Both readers, which call each other with less fuel. -/
theorem limited_choice_sequence (fuel : Nat) :
    (∀ verbose outermost isFirst, Limited (choice fuel verbose outermost isFirst))
      ∧ ∀ verbose isFirst items, Limited (sequence fuel verbose isFirst items) := by
  induction fuel with
  | zero => exact ⟨fun _ _ _ => limited_pure _, fun _ _ _ => limited_pure _⟩
  | succ fuel ih =>
      obtain ⟨hchoice, hsequence⟩ := ih
      refine ⟨fun verbose outermost isFirst => ?_, fun verbose isFirst items => ?_⟩
      · refine (hsequence _ _ _).bind fun first => (limited_skip _).bind fun _ => ?_
        refine limited_ite (limited_get.bind fun r => ?_) (limited_pure _)
        exact (hchoice _ _ _).bind fun _ => limited_pure _
      · refine limited_peek.bind fun symbol => ?_
        split
        · exact limited_pure _
        · exact limited_pure _
        · exact limited_pure _
        refine limited_position.bind fun start => limited_take.bind fun _ => ?_
        -- What follows the body of a group.
        have hclose {read : Read Pattern} (h : Limited read) (verbose : Bool)
            (next : Pattern → List Pattern) :
            Limited (do
              let body ← read
              close start
              sequence fuel verbose isFirst (next body)) :=
          h.bind fun _ => (limited_close _).bind fun _ => hsequence _ _ _
        split
        · exact (limited_escape _).bind fun _ => hsequence _ _ _
        · refine limited_ite (hsequence _ _ _) (limited_ite ?_ (limited_ite ?_ (limited_ite ?_ ?_)))
          · exact limited_get.bind fun _ => (limited_skipLine _).bind fun _ => hsequence _ _ _
          · exact limited_setPattern.bind fun _ => hsequence _ _ _
          · refine (limited_signBounds? _).bind fun bounds => ?_
            split
            · exact hsequence _ _ _
            · exact (limited_repeatLast _ _ _ _).bind fun _ => hsequence _ _ _
          refine limited_ite (hsequence _ _ _) (limited_ite (hsequence _ _ _) ?_)
          refine limited_ite (hsequence _ _ _) (limited_ite ?_ (hsequence _ _ _))
          refine (limited_opening _ _).bind fun kind => ?_
          cases kind with
          | nothing => exact limited_get.bind fun _ => hsequence _ _ _
          | again p => exact hsequence _ _ _
          | numbered name =>
              refine (limited_openGroup _).bind fun number => (hchoice _ _ _).bind fun body => ?_
              refine (limited_close _).bind fun _ => (limited_closeGroup _ _).bind fun _ => ?_
              exact hsequence _ _ _
          | plain on off => exact hclose (hchoice _ _ _) _ _
          | atomic => exact hclose (hchoice _ _ _) _ _
          | ahead negated => exact hclose (hchoice _ _ _) _ _
          | behind negated => exact hclose (limited_insideBehind (hchoice _ _ _)) _ _
          | condition =>
              refine limited_conditionGroup.bind fun number => (hsequence _ _ _).bind fun yes => ?_
              refine (limited_skip _).bind fun _ => limited_ite ?_ ?_
              · refine (hsequence _ _ _).bind fun no => limited_peek.bind fun s => ?_
                have hend := (limited_close start).bind fun _ =>
                  hsequence verbose isFirst (ifMatched number yes (some no) :: items)
                exact limited_ite ((limited_fault _ _).bind fun _ => hend) hend
              · exact (limited_close _).bind fun _ => hsequence _ _ _
        · exact hsequence _ _ _

theorem limited_whole (source : Text) : Limited (whole source) := by
  refine (limited_goTo _ _).bind fun _ => ?_
  refine ((limited_choice_sequence _).1 _ _ _).bind fun p => limited_get.bind fun r => ?_
  refine limited_ite (fun _ => Or.inr (Or.inl rfl)) (limited_peek.bind fun s => ?_)
  refine limited_ite (limited_fault _ _) (limited_get.bind fun r => ?_)
  split
  · exact limited_faultAt _ _
  · exact limited_pure _

end Read

/-- A pattern that can be read but not be matched is malformed. -/
theorem check_limit (template : Bool) (p : Pattern) :
    Attempt.Gives (check template p) (fun _ => True) Fault.IsLimit := by
  fun_induction check template p with
  | case8 _ _ ha hb | case9 _ _ ha hb | case19 _ _ _ ha hb => exact ha.bind fun _ _ => hb
  | case11 | case12 | case13 | case14 | case17 | case18 => assumption
  | _ => trivial

/-- A pattern is refused as malformed or because of a limit. -/
theorem read_limit (source : Text) :
    Attempt.Gives (read source) (fun _ => True) Fault.IsLimit := by
  refine Attempt.Gives.bind (Read.limited_whole source _) fun out _ => ?_
  exact (check_limit _ _).bind fun _ _ => trivial

end PipeShell.Pattern
