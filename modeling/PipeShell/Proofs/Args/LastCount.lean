import PipeShell.Proofs.Args.Counts

/-!
# The last count of a line range

A line range can be given several counts. In the order in which its tokens are scanned the last one
holds, and what is no numeral in the place of a count is passed over.
-/

namespace PipeShell

/-! ## Numbers -/

namespace Numeral

variable {d t : Text} {n : Option Nat}

/-- The number that a text writes, if it is a numeral. -/
def number? (t : Text) : Option Nat :=
  (lineDigits? t).map value

theorem eq_number?_of_count? (h : count? t = .ok n) : n = number? t := by
  rw [count?] at h
  cases hdigits : lineDigits? t with
  | none => simp_all [number?]
  | some digits =>
      simp only [hdigits, Numeral.read] at h
      split at h
      · obtain rfl : some (value digits) = n := Except.ok.inj h
        rw [number?, hdigits, Option.map_some]
      · cases h

/-- The text has decimal digits only, at least one and not more than a reader accepts. -/
structure IsNumeral (d : Text) : Prop where
  filled : d ≠ []
  digits : ∀ c ∈ d, Text.isDigit c = true
  short : d.length ≤ maxDigits

/-- The number that the digits of a text write. -/
def number (d : Text) : Nat :=
  value (d.filterMap Text.digitValue?)

theorem mapM_digitValue? (h : ∀ c ∈ d, Text.isDigit c = true) :
    d.mapM Text.digitValue? = some (d.filterMap Text.digitValue?) := by
  induction d with
  | nil => rfl
  | cons c d ih =>
      obtain ⟨hc, hd⟩ := List.forall_mem_cons.mp h
      obtain ⟨digit, hdigit⟩ := Option.isSome_iff_exists.mp hc
      simp [List.mapM_cons, hdigit, ih hd]

namespace IsNumeral

variable (h : IsNumeral d)
include h

theorem lineDigits?_eq : lineDigits? d = some (d.filterMap Text.digitValue?) := by
  have hlast : d.getLast? ≠ some '\n' := fun hlast =>
    absurd (h.digits _ (List.mem_of_getLast? hlast)) (by decide)
  rw [lineDigits?, if_neg hlast, digits?, if_neg h.filled, mapM_digitValue? h.digits]

theorem read_eq : read (d.filterMap Text.digitValue?) = .ok (number d) :=
  if_pos (Nat.le_trans (List.length_filterMap_le _ _) h.short)

theorem count?_eq : count? d = .ok (some (number d)) := by
  rw [count?, h.lineDigits?_eq]
  exact congrArg (Except.map some) h.read_eq

theorem not_dash_mem : '-' ∉ d := fun hmem =>
  absurd (h.digits _ hmem) (by decide)

end IsNumeral

end Numeral

/-! ## The places of counts -/

namespace Args

open Numeral (number? number IsNumeral)

variable {tokens : List Text} {t d : Text} {args args' : Args} {named : Bool}

instance (t : Text) : Decidable (TakesCount t) :=
  inferInstanceAs (Decidable (_ ∨ _))

/-- The place of a count in a token that takes none: behind a dash, or the whole token when the path
was met before. -/
def ownPlace (named : Bool) : Text → List Text
  | '-' :: count => [count]
  | t => if named then [t] else []

/-- The texts in the places of counts, in the order of the scan. The first token that is no flag and
is not taken is the path; `named` says that it was met before. -/
def countPlaces : Bool → List Text → List Text
  | _, [] => []
  | named, [t] => ownPlace named t
  | named, t :: next :: rest =>
      if TakesCount t then next :: countPlaces named rest
      else ownPlace named t ++ countPlaces (named || !isFlag t) (next :: rest)

/-- The counts of a line range, in the order of the scan. -/
def counts (named : Bool) (tokens : List Text) : List Nat :=
  (countPlaces named tokens).filterMap number?

theorem counts_taken (ht : TakesCount t) (next : Text) (rest : List Text) :
    counts named (t :: next :: rest) = [next].filterMap number? ++ counts named rest := by
  rw [counts, countPlaces, if_pos ht, ← List.singleton_append, List.filterMap_append, counts]

theorem counts_cons (ht : ¬TakesCount t) (rest : List Text) :
    counts named (t :: rest)
      = (ownPlace named t).filterMap number? ++ counts (named || !isFlag t) rest := by
  cases rest with
  | nil => simp [counts, countPlaces]
  | cons next rest => rw [counts, countPlaces, if_neg ht, List.filterMap_append, counts]

/-- A token that is no flag can be a count as a whole. -/
theorem filterMap_ownPlace (h : isFlag t = false) :
    (ownPlace named t).filterMap number? = if named then [t].filterMap number? else [] := by
  unfold ownPlace
  split
  · rename_i count
    obtain rfl : count = [] := by simpa [isFlag] using h
    cases named <;> rfl
  · cases named <;> rfl

theorem exists_dash_of_isFlag (h : isFlag t = true) : ∃ count, t = '-' :: count := by
  cases t with
  | nil => cases h
  | cons c count =>
      obtain rfl : c = '-' := by
        rw [isFlag, Bool.and_eq_true] at h
        simpa using h.1
      exact ⟨count, rfl⟩

/-- The last of the counts, or the former one if there is none. -/
def latest (counts : List Nat) (former : Option Value) : Option Value :=
  (counts.getLast?.map fun (n : Nat) => Value.number n).or former

theorem latest_append (ns more : List Nat) (former : Option Value) :
    latest (ns ++ more) former = latest more (latest ns former) := by
  rw [latest, latest, latest, List.getLast?_append]
  cases more.getLast? <;> rfl

/-! ## The scan -/

theorem lines_setLines (h : setLines t args = .ok args') :
    args'.get? .lines = latest ([t].filterMap number?) (args.get? .lines) := by
  rw [setLines] at h
  cases hcount : Numeral.count? t with
  | error f => simp [hcount] at h
  | ok n =>
      have hn := Numeral.eq_number?_of_count? hcount
      cases n with
      | none =>
          obtain rfl : args = args' := by simpa [hcount] using h
          simp [← hn, latest]
      | some n =>
          obtain rfl : args.set .lines (.number n) = args' := by simpa [hcount] using h
          simp [← hn, latest, get?_set_self]

theorem lineRangeToken_flag {count : Text} (h : isFlag ('-' :: count) = true) (args : Args) :
    lineRangeToken ('-' :: count) args = setLines count args := by
  simp only [lineRangeToken, shorthand?, setLines, Numeral.count?]
  cases hdigits : Numeral.lineDigits? count with
  | none => simp [h]
  | some digits => cases hread : Numeral.read digits <;> simp [hread, Except.map]

/-- A token that is no flag is the path, or behind the path in the place of a count. -/
theorem lineRangeToken_operand (h : isFlag t = false) (args : Args) :
    lineRangeToken t args
      = if args.has .path then setLines t args else .ok (args.set .path (.text t)) := by
  have hshort : shorthand? t = none := Option.eq_none_iff_forall_ne_some.mpr fun _ hshort => by
    simp [isFlag_of_shorthand? hshort] at h
  simp [lineRangeToken, hshort, h]

theorem lines_lineRangeToken (h : lineRangeToken t args = .ok args') :
    args'.get? .lines
      = latest ((ownPlace (args.has .path) t).filterMap number?) (args.get? .lines) := by
  by_cases hflag : isFlag t = true
  · obtain ⟨count, rfl⟩ := exists_dash_of_isFlag hflag
    rw [lineRangeToken_flag hflag] at h
    exact lines_setLines h
  · have hoperand : isFlag t = false := by simpa using hflag
    rw [lineRangeToken_operand hoperand] at h
    rw [filterMap_ownPlace hoperand]
    split at h
    · rename_i hpath
      rw [if_pos hpath, lines_setLines h]
    · rename_i hpath
      obtain rfl := Except.ok.inj h
      rw [if_neg hpath, get?_set_of_ne (by decide)]
      rfl

theorem lineRange_taken (ht : TakesCount t) (next : Text) (rest : List Text) (args : Args) :
    lineRange (t :: next :: rest) args = setLines next args >>= lineRange rest := by
  rw [lineRange]
  exact if_pos ht

theorem lineRange_cons (ht : ¬TakesCount t) (rest : List Text) (args : Args) :
    lineRange (t :: rest) args = lineRangeToken t args >>= lineRange rest := by
  cases rest with
  | nil => cases hown : lineRangeToken t args <;> simp [lineRange, hown]
  | cons next rest =>
      rw [lineRange]
      exact if_neg ht

/-- Where tokens have several counts, the last one holds. -/
theorem lines_lineRange (h : lineRange tokens args = .ok args') :
    args'.get? .lines = latest (counts (args.has .path) tokens) (args.get? .lines) := by
  fun_induction lineRange tokens args with
  | case1 args =>
      obtain rfl := Except.ok.inj h
      rfl
  | case2 t args => exact lines_lineRangeToken h
  -- The tokens behind one only depend on whether the path was met, which `counts` keeps track of.
  | case3 t next rest args ht ih =>
      cases hnext : setLines next args with
      | error f => simp [hnext] at h
      | ok found =>
          have hrest := ih found (by simpa [hnext] using h)
          rw [hrest, has_path_setLines hnext, lines_setLines hnext, counts_taken ht, latest_append]
  | case4 t next rest args ht ih =>
      cases hown : lineRangeToken t args with
      | error f => simp [hown] at h
      | ok found =>
          have hrest := ih found (by simpa [hown] using h)
          rw [hrest, has_path_lineRangeToken hown, lines_lineRangeToken hown, counts_cons ht,
            latest_append]

/-! ## Ways to give one count -/

/-- The ways to ask for `d` lines of the file `p`. -/
def fileForms (d p : Text) : List (List Text) :=
  [["-n", d, p], ["--lines", d, p], ['-' :: d, p], [p, d], [p, "-n", d], [p, '-' :: d]]

/-- The ways to ask for `d` lines of piped text. -/
def pipeForms (d : Text) : List (List Text) :=
  [[d], ["-n", d], ['-' :: d]]

section Forms

variable (hd : IsNumeral d)
include hd

theorem isFlag_numeral : isFlag d = false := by
  have hhead : d.head? ≠ some '-' := fun hhead => hd.not_dash_mem (List.mem_of_head? hhead)
  simp [isFlag, hhead]

theorem isFlag_dash_numeral : isFlag ('-' :: d) = true := by
  simp [isFlag, hd.filled]

theorem not_takesCount_dash_numeral : ¬TakesCount ('-' :: d) := by
  rintro (h | h)
  · obtain rfl : d = ['n'] := (List.cons.inj h).2
    exact absurd (hd.digits 'n' (by simp)) (by decide)
  · obtain rfl : d = "-lines" := (List.cons.inj h).2
    exact hd.not_dash_mem (by decide)

theorem setLines_numeral (args : Args) :
    setLines d args = .ok (args.set .lines (.number (number d))) := by
  rw [setLines, hd.count?_eq]
  rfl

theorem lineRangeToken_dash_numeral (args : Args) :
    lineRangeToken ('-' :: d) args = .ok (args.set .lines (.number (number d))) := by
  rw [lineRangeToken_flag (isFlag_dash_numeral hd), setLines_numeral hd]

theorem lineRangeToken_numeral (h : args.has .path = true) :
    lineRangeToken d args = .ok (args.set .lines (.number (number d))) := by
  rw [lineRangeToken_operand (isFlag_numeral hd), if_pos h, setLines_numeral hd]

/-- Each way to ask for lines of a file gives the path and the number. -/
theorem lineRange_fileForms {p : Text} (hp : isFlag p = false) (h : tokens ∈ fileForms d p) :
    ∃ args, lineRange tokens [] = .ok args ∧ args.text? .path = some p
      ∧ args.get? .lines = some (.number (number d)) := by
  have hshort : TakesCount "-n" := .inl rfl
  have hlong : TakesCount "--lines" := .inr rfl
  have hdash := not_takesCount_dash_numeral hd
  have hnot {t : Text} (ht : isFlag t = false) : ¬TakesCount t := fun htakes => by
    simp [isFlag_of_takesCount htakes] at ht
  have hpath (args : Args) (hfirst : args.has .path = false) (rest : List Text) :
      lineRange (p :: rest) args = lineRange rest (args.set .path (.text p)) := by
    rw [lineRange_cons (hnot hp), lineRangeToken_operand hp, if_neg (by simp [hfirst]),
      Attempt.ok_bind]
  simp only [fileForms, List.mem_cons, List.not_mem_nil, or_false] at h
  rcases h with rfl | rfl | rfl | rfl | rfl | rfl
  · rw [lineRange_taken hshort, setLines_numeral hd, Attempt.ok_bind, hpath _ rfl]
    exact ⟨_, rfl, rfl, rfl⟩
  · rw [lineRange_taken hlong, setLines_numeral hd, Attempt.ok_bind, hpath _ rfl]
    exact ⟨_, rfl, rfl, rfl⟩
  · rw [lineRange_cons hdash, lineRangeToken_dash_numeral hd, Attempt.ok_bind, hpath _ rfl]
    exact ⟨_, rfl, rfl, rfl⟩
  · rw [hpath _ rfl, lineRange_cons (hnot (isFlag_numeral hd)), lineRangeToken_numeral hd rfl]
    exact ⟨_, rfl, rfl, rfl⟩
  · rw [hpath _ rfl, lineRange_taken hshort, setLines_numeral hd]
    exact ⟨_, rfl, rfl, rfl⟩
  · rw [hpath _ rfl, lineRange_cons hdash, lineRangeToken_dash_numeral hd]
    exact ⟨_, rfl, rfl, rfl⟩

/-- Each way to ask for lines of piped text gives the number, or the numeral as the path. -/
theorem lineRange_pipeForms (h : tokens ∈ pipeForms d) :
    lineRange tokens [] = .ok [(.path, .text d)]
      ∨ lineRange tokens [] = .ok [(.lines, .number (number d))] := by
  have hflag := isFlag_numeral hd
  have hnot : ¬TakesCount d := fun htakes => by simp [isFlag_of_takesCount htakes] at hflag
  simp only [pipeForms, List.mem_cons, List.not_mem_nil, or_false] at h
  rcases h with rfl | rfl | rfl
  · rw [lineRange_cons hnot, lineRangeToken_operand hflag]
    exact .inl rfl
  · rw [lineRange_taken (.inl rfl), setLines_numeral hd]
    exact .inr rfl
  · rw [lineRange_cons (not_takesCount_dash_numeral hd), lineRangeToken_dash_numeral hd]
    exact .inr rfl

end Forms

end Args

end PipeShell
