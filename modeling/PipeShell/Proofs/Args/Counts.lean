import PipeShell.Proofs.Args.Keys
import PipeShell.Proofs.Number.Digits

/-!
# Counts of a line range

Where the tokens of a line range have counts. The tokens cannot be read exactly when one of these
counts is a numeral that is too long.
-/

namespace PipeShell.Args

open Attempt (Fails Gives)
open Numeral (TooLong IsTooMany)

/-- The token takes the one behind it as a count. -/
def TakesCount (t : Text) : Prop :=
  t = "-n" ∨ t = "--lines"

/-- Scanned from left to right, the tokens have a count with `P`. The first token that is no flag
and is not taken is the path; `named` says that it was met before. -/
inductive MeetsCount (P : Text → Prop) : Bool → List Text → Prop
  | taken {named t count rest} : TakesCount t → P count → MeetsCount P named (t :: count :: rest)
  | shorthand {named count rest} : P count → MeetsCount P named (('-' :: count) :: rest)
  | operand {count rest} : isFlag count = false → P count → MeetsCount P true (count :: rest)
  | behindTaken {named t count rest} :
      TakesCount t → MeetsCount P named rest → MeetsCount P named (t :: count :: rest)
  | behind {named t rest} :
      ¬TakesCount t → MeetsCount P (named || !isFlag t) rest → MeetsCount P named (t :: rest)

variable {P : Text → Prop} {named : Bool} {t next : Text} {tokens rest : List Text}
  {args args' : Args} {key other : Key}

/-- The token itself is a count with `P`. -/
def IsCount (P : Text → Prop) (named : Bool) (t : Text) : Prop :=
  (∃ count, t = '-' :: count ∧ P count) ∨ isFlag t = false ∧ named = true ∧ P t

theorem isFlag_of_takesCount (h : TakesCount t) : isFlag t = true := by
  rcases h with rfl | rfl <;> rfl

theorem not_isCount_of_takesCount (h : TakesCount t) : ¬IsCount TooLong named t := by
  rintro (⟨count, rfl, digits, -, hdigits⟩ | ⟨hflag, -⟩)
  · obtain ⟨found, hfound, -⟩ := Numeral.hasDigits_iff.mp hdigits
    rcases h with h | h <;> obtain rfl := (List.cons.inj h).2 <;> cases hfound
  · simp [isFlag_of_takesCount h] at hflag

/-! ## One token of the scan -/

theorem not_meetsCount_nil : ¬MeetsCount P named [] :=
  nofun

theorem MeetsCount.of_isCount (h : IsCount P named t) : MeetsCount P named (t :: rest) := by
  rcases h with ⟨count, rfl, hcount⟩ | ⟨hflag, rfl, hcount⟩
  · exact .shorthand hcount
  · exact .operand hflag hcount

theorem meetsCount_singleton : MeetsCount P named [t] ↔ IsCount P named t := by
  refine ⟨fun h => ?_, .of_isCount⟩
  cases h with
  | shorthand hcount => exact .inl ⟨_, rfl, hcount⟩
  | operand hflag hcount => exact .inr ⟨hflag, rfl, hcount⟩
  | behind _ h => exact absurd h not_meetsCount_nil

theorem meetsCount_taken (ht : TakesCount t) :
    MeetsCount TooLong named (t :: next :: rest)
      ↔ TooLong next ∨ MeetsCount TooLong named rest := by
  have hnot (named : Bool) : ¬IsCount TooLong named t := not_isCount_of_takesCount ht
  refine ⟨fun h => ?_, fun h => h.elim (.taken ht) (.behindTaken ht)⟩
  cases h with
  | taken _ hcount => exact .inl hcount
  | shorthand hcount => exact absurd (.inl ⟨_, rfl, hcount⟩) (hnot named)
  | operand hflag hcount => exact absurd (.inr ⟨hflag, rfl, hcount⟩) (hnot true)
  | behindTaken _ h => exact .inr h
  | behind hnot _ => exact absurd ht hnot

theorem meetsCount_cons (ht : ¬TakesCount t) :
    MeetsCount P named (t :: rest)
      ↔ IsCount P named t ∨ MeetsCount P (named || !isFlag t) rest := by
  refine ⟨fun h => ?_, fun h => h.elim .of_isCount (.behind ht)⟩
  cases h with
  | taken h _ => exact absurd h ht
  | shorthand hcount => exact .inl (.inl ⟨_, rfl, hcount⟩)
  | operand hflag hcount => exact .inl (.inr ⟨hflag, rfl, hcount⟩)
  | behindTaken h _ => exact absurd h ht
  | behind _ h => exact .inr h

/-! ## One step of the reader -/

theorem has_set_self (key : Key) (value : Value) (args : Args) :
    (args.set key value).has key = true := by
  rw [has, get?_set_self]
  rfl

theorem has_set_of_ne (h : other ≠ key) (value : Value) (args : Args) :
    (args.set key value).has other = args.has other := by
  rw [has, get?_set_of_ne h, has]

theorem fails_setLines : Fails (setLines t args) ↔ TooLong t := by
  rw [← Numeral.fails_count?, setLines]
  cases Numeral.count? t with
  | error f => simp
  | ok n => cases n <;> simp

theorem has_path_setLines (h : setLines t args = .ok args') :
    args'.has .path = args.has .path := by
  rw [setLines] at h
  cases hcount : Numeral.count? t with
  | error f => simp [hcount] at h
  | ok n =>
      cases n with
      | none => simp_all
      | some n =>
          obtain rfl : args.set .lines (.number n) = args' := by simpa [hcount] using h
          exact has_set_of_ne (by decide) _ _

theorem isFlag_of_shorthand? {digits : List Nat} (h : shorthand? t = some digits) :
    isFlag t = true := by
  unfold shorthand? at h
  split at h
  · rename_i rest
    have hne : rest ≠ [] := by
      rintro rfl
      cases h
    simp [isFlag, hne]
  · cases h

theorem fails_lineRangeToken :
    Fails (lineRangeToken t args) ↔ IsCount TooLong (args.has .path) t := by
  rw [lineRangeToken]
  cases hshort : shorthand? t with
  | some digits =>
      have hflag := isFlag_of_shorthand? hshort
      unfold shorthand? at hshort
      split at hshort
      · rename_i count
        have hlong :
            IsCount TooLong (args.has .path) ('-' :: count) ↔ Fails (Numeral.read digits) := by
          simp [IsCount, hflag, Numeral.tooLong_iff, hshort]
        rw [hlong]
        cases hread : Numeral.read digits <;> simp [hread]
      · cases hshort
  | none =>
      have hcount : ¬∃ count, t = '-' :: count ∧ TooLong count := by
        rintro ⟨count, rfl, hlong⟩
        obtain ⟨digits, hdigits, -⟩ := Numeral.tooLong_iff.mp hlong
        simp [shorthand?, hdigits] at hshort
      rw [IsCount, or_iff_right hcount]
      by_cases hflag : isFlag t = true
      · simp [hflag]
      · by_cases hpath : args.has .path = true
        · simp [hflag, hpath, fails_setLines]
        · simp [hflag, hpath]

theorem has_path_lineRangeToken (h : lineRangeToken t args = .ok args') :
    args'.has .path = (args.has .path || !isFlag t) := by
  rw [lineRangeToken] at h
  cases hshort : shorthand? t with
  | some digits =>
      rw [hshort] at h
      rw [isFlag_of_shorthand? hshort]
      cases hread : Numeral.read digits with
      | error f => simp [hread] at h
      | ok n =>
          obtain rfl : args.set .lines (.number n) = args' := by simpa [hread] using h
          rw [has_set_of_ne (by decide), Bool.not_true, Bool.or_false]
  | none =>
      simp only [hshort] at h
      split at h
      · rename_i hflag
        obtain rfl : args = args' := Except.ok.inj h
        simp [hflag]
      · rename_i hflag
        split at h
        · rename_i hpath
          rw [has_path_setLines h, hpath, Bool.true_or]
        · obtain rfl : args.set .path (.text t) = args' := Except.ok.inj h
          simp [has_set_self, hflag]

/-! ## The whole scan -/

/-- The arguments of a line range cannot be read exactly when they have a count that is too long. -/
theorem fails_lineRange :
    Fails (lineRange tokens args) ↔ MeetsCount TooLong (args.has .path) tokens := by
  -- Of the record only the presence of a path matters, and each step changes it as the scan does.
  fun_induction lineRange tokens args with
  | case1 args => simp [not_meetsCount_nil]
  | case2 t args => rw [meetsCount_singleton, fails_lineRangeToken]
  | case3 t next rest args ht ih =>
      have hnext : Fails (setLines next args) ↔ TooLong next := fails_setLines
      rw [meetsCount_taken ht, ← hnext]
      exact Attempt.fails_bind fun args' h => by rw [ih args', has_path_setLines h]
  | case4 t next rest args ht ih =>
      rw [meetsCount_cons ht, ← fails_lineRangeToken]
      exact Attempt.fails_bind fun args' h => by rw [ih args', has_path_lineRangeToken h]

/-- Only the arguments of a line range can fail to be read. -/
theorem fails_parse {v : Verb} :
    Fails (parse v tokens) ↔ (v = .head ∨ v = .tail) ∧ MeetsCount TooLong false tokens := by
  have hrange : Fails (lineRange tokens []) ↔ MeetsCount TooLong false tokens := fails_lineRange
  cases v <;> simp [parse, hrange]

/-! ## The failure -/

theorem gives_setLines (t : Text) (args : Args) :
    Gives (setLines t args) (fun _ => True) IsTooMany := by
  refine (Numeral.gives_count? t).bind fun n _ => ?_
  cases n <;> exact trivial

theorem gives_lineRangeToken (t : Text) (args : Args) :
    Gives (lineRangeToken t args) (fun _ => True) IsTooMany := by
  rw [lineRangeToken]
  split
  · exact (Numeral.gives_read _).bind fun _ _ => trivial
  · split
    · exact trivial
    · split
      · exact gives_setLines t args
      · exact trivial

theorem gives_lineRange (tokens : List Text) (args : Args) :
    Gives (lineRange tokens args) (fun _ => True) IsTooMany := by
  fun_induction lineRange tokens args with
  | case1 args => exact trivial
  | case2 t args => exact gives_lineRangeToken t args
  | case3 t next rest args _ ih => exact (gives_setLines next args).bind fun args' _ => ih args'
  | case4 t next rest args _ ih => exact (gives_lineRangeToken t args).bind fun args' _ => ih args'

theorem gives_parse (v : Verb) (tokens : List Text) :
    Gives (parse v tokens) (fun _ => True) IsTooMany := by
  cases v <;> first | exact trivial | exact gives_lineRange tokens []

end PipeShell.Args
