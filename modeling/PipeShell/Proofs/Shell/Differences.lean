import Mathlib.Data.List.Basic
import PipeShell.Proofs.Number.Front
import PipeShell.Proofs.Shell.Piped

/-!
# Differences as patches

The report of `diff` can be read back, and tells for each line number what each of the two texts has
there, as far as they differ. So it turns the lines of one text into those of the other, in both
directions. It has no entries exactly when only a line feed at the end makes the difference.
-/

namespace PipeShell

open PipeShell.Action

/-- A line that only one of two texts has at its number: it is added there, or else it goes. -/
structure LineChange where
  added : Bool
  number : Nat
  line : Text
  deriving DecidableEq, Repr

namespace LineChange

variable {c : LineChange} {cs : List LineChange} {old new : List Text} {number : Nat}

/-! ## Entries of reports -/

/-- The entry of a report for the change. -/
def shown (c : LineChange) : Text :=
  (if c.added then "+ " else "- ") ++ Text.ofNat c.number ++ ": " ++ c.line

/-- A number, and behind a colon the line that is added or goes there. -/
def readNumbered? (added : Bool) (t : Text) : Option LineChange :=
  match Text.numberInFront t with
  | (number, ':' :: ' ' :: line) => some ⟨added, number, line⟩
  | _ => none

/-- What an entry of a report says; any other line says nothing. -/
def read? : Text → Option LineChange
  | '+' :: ' ' :: t => readNumbered? true t
  | '-' :: ' ' :: t => readNumbered? false t
  | _ => none

theorem read?_shown (c : LineChange) : read? c.shown = some c := by
  obtain ⟨added, number, line⟩ := c
  have hfront : Text.numberInFront (Text.ofNat number ++ ':' :: ' ' :: line)
      = (number, ':' :: ' ' :: line) := Text.numberInFront_ofNat_append number (by simp)
  have hread : readNumbered? added (Text.ofNat number ++ ':' :: ' ' :: line)
      = some ⟨added, number, line⟩ := by simp only [readNumbered?, hfront]
  have hshown : shown ⟨added, number, line⟩
      = (if added then "+ " else "- ") ++ (Text.ofNat number ++ ':' :: ' ' :: line) := by
    simp [shown]
  rw [hshown]
  cases added <;> exact hread

theorem newline_not_mem_shown (h : '\n' ∉ c.line) : '\n' ∉ c.shown := by
  intro hmem
  simp only [shown, List.mem_append] at hmem
  rcases hmem with ((hsign | hdigit) | hcolon) | hline
  · split at hsign <;> exact absurd hsign (by decide)
  · exact absurd (Text.isDigit_of_mem_ofNat hdigit) (by decide)
  · exact absurd hcolon (by decide)
  · exact h hline

/-! ## Applying changes -/

/-- The line that the changes leave at a number: the one that is added there; none where a line only
goes; and else the former one. Lines are numbered from one. -/
def lineAt (cs : List LineChange) (ls : List Text) (number : Nat) : Option Text :=
  match cs.find? fun c => c.number = number && c.added with
  | some c => some c.line
  | none => if cs.any (·.number = number) then none else ls[number - 1]?

/-- The lines that the changes make of the given ones. Each change adds at most one line. -/
def apply (cs : List LineChange) (ls : List Text) : List Text :=
  (List.range' 1 (ls.length + cs.length)).filterMap (lineAt cs ls)

/-- The change that leads the other way. -/
def reversed (c : LineChange) : LineChange :=
  { c with added := !c.added }

@[simp] theorem reversed_reversed (c : LineChange) : c.reversed.reversed = c := by
  simp [reversed]

/-- The two texts differ at the number of the change, and the line is the one that the new text has
there, or else the old one. -/
def Tells (number : Nat) (old new : List Text) (c : LineChange) : Prop :=
  ∃ i, c.number = number + i ∧ old[i]? ≠ new[i]?
    ∧ (if c.added then new else old)[i]? = some c.line

/-- These are the changes from the old lines to the new ones. -/
def Describes (cs : List LineChange) (old new : List Text) : Prop :=
  ∀ c, c ∈ cs ↔ Tells 1 old new c

theorem tells_reversed : Tells number old new c.reversed ↔ Tells number new old c := by
  refine exists_congr fun i => and_congr Iff.rfl (and_congr ne_comm ?_)
  cases hadded : c.added <;> simp [reversed, hadded]

theorem Describes.reversed (h : Describes cs old new) :
    Describes (cs.map LineChange.reversed) new old := by
  intro c
  rw [← tells_reversed, ← h, List.mem_map]
  constructor
  · rintro ⟨c, hc, rfl⟩
    simpa using hc
  · intro hc
    exact ⟨c.reversed, hc, reversed_reversed c⟩

/-- Where the texts differ, one of them has a line to tell. -/
theorem exists_tells {i : Nat} (hne : old[i]? ≠ new[i]?) (number : Nat) :
    ∃ c : LineChange, c.number = number + i ∧ Tells number old new c := by
  cases hnew : new[i]? with
  | some line => exact ⟨⟨true, number + i, line⟩, rfl, i, rfl, hne, hnew⟩
  | none =>
      obtain ⟨line, hold⟩ := Option.ne_none_iff_exists'.mp (hnew ▸ hne)
      exact ⟨⟨false, number + i, line⟩, rfl, i, rfl, hne, hold⟩

theorem Describes.exists_succ_iff (h : Describes cs old new) (i : Nat) :
    (∃ c ∈ cs, c.number = i + 1) ↔ old[i]? ≠ new[i]? := by
  constructor
  · rintro ⟨c, hc, hnumber⟩
    obtain ⟨j, hj, hne, -⟩ := (h c).mp hc
    obtain rfl : j = i := by omega
    exact hne
  · intro hne
    obtain ⟨c, hnumber, hc⟩ := exists_tells hne 1
    exact ⟨c, (h c).mpr hc, by omega⟩

theorem Describes.exists_number_iff (h : Describes cs old new) (number : Nat) :
    (∃ c ∈ cs, c.number = number) ↔ 1 ≤ number ∧ old[number - 1]? ≠ new[number - 1]? := by
  cases number with
  | zero =>
      refine ⟨fun ⟨c, hc, hnumber⟩ => ?_, fun h => absurd h.1 (by decide)⟩
      obtain ⟨i, hi, -⟩ := (h c).mp hc
      omega
  | succ i => simpa using h.exists_succ_iff i

theorem Describes.lineAt_eq (h : Describes cs old new) (i : Nat) :
    lineAt cs old (i + 1) = new[i]? := by
  unfold lineAt
  split
  · rename_i c hfind
    have hfound : c.number = i + 1 ∧ c.added = true := by simpa using List.find?_some hfind
    obtain ⟨j, hj, -, hline⟩ := (h c).mp (List.mem_of_find?_eq_some hfind)
    obtain rfl : j = i := by omega
    rw [← hline, if_pos hfound.2]
  · rename_i hfind
    have hnone : ∀ line, old[i]? ≠ new[i]? → new[i]? ≠ some line := by
      intro line hne hnew
      have hmem : ⟨true, i + 1, line⟩ ∈ cs := (h _).mpr ⟨i, Nat.add_comm i 1, hne, hnew⟩
      simpa using List.find?_eq_none.mp hfind _ hmem
    have hany : (cs.any (·.number = i + 1)) = true ↔ old[i]? ≠ new[i]? := by
      rw [← h.exists_succ_iff]
      simp
    -- No line was added there, so one was deleted or the texts agree.
    split
    · rename_i hnumber
      exact (Option.eq_none_iff_forall_ne_some.mpr fun line => hnone line (hany.mp hnumber)).symm
    · rename_i hnumber
      exact not_not.mp fun hne => hnumber (hany.mpr hne)

theorem filterMap_range'_getElem? {ls : List Text} {n : Nat} (h : ls.length ≤ n) (start : Nat) :
    (List.range' start n).filterMap (fun number => ls[number - start]?) = ls := by
  induction ls generalizing start n with
  | nil => simp
  | cons line ls ih =>
      obtain ⟨n, rfl⟩ : ∃ k, n = k + 1 := ⟨n - 1, by simp at h; omega⟩
      have hrest : ∀ number ∈ List.range' (start + 1) n,
          (line :: ls)[number - start]? = ls[number - (start + 1)]? := by
        intro number hnumber
        have hlt : start + 1 ≤ number := (List.mem_range'_1.mp hnumber).1
        rw [show number - start = number - (start + 1) + 1 by omega, List.getElem?_cons_succ]
      rw [List.range'_succ, List.filterMap_cons_some (by simp; rfl), List.filterMap_congr hrest,
        ih (by simpa using h)]

theorem Describes.apply_eq (h : Describes cs old new) (hlength : new.length ≤ old.length + cs.length) :
    apply cs old = new := by
  have hlines : ∀ number ∈ List.range' 1 (old.length + cs.length),
      lineAt cs old number = new[number - 1]? := by
    intro number hnumber
    obtain ⟨i, rfl⟩ : ∃ i, number = i + 1 := ⟨number - 1, by
      have := (List.mem_range'_1.mp hnumber).1
      omega⟩
    exact h.lineAt_eq i
  rw [apply, List.filterMap_congr hlines, filterMap_range'_getElem? hlength]

/-! ## The changes between two texts -/

/-- The changes from the old lines to the new ones, line by line from a number on. -/
def between (number : Nat) : List Text → List Text → List LineChange
  | [], [] => []
  | line :: old, [] => ⟨false, number, line⟩ :: between (number + 1) old []
  | [], line :: new => ⟨true, number, line⟩ :: between (number + 1) [] new
  | line :: old, line' :: new =>
      if line = line' then between (number + 1) old new
      else ⟨false, number, line⟩ :: ⟨true, number, line'⟩ :: between (number + 1) old new

theorem lineDifferences_eq (number : Nat) (old new : List Text) :
    Command.lineDifferences number old new = (between number old new).map shown := by
  fun_induction between number old new with
  | case1 => simp [Command.lineDifferences]
  | case2 number line old ih => rw [Command.lineDifferences, ih]; rfl
  | case3 number line new ih => rw [Command.lineDifferences, ih]; rfl
  | case4 number line old new ih => rw [Command.lineDifferences, if_pos rfl, ih]
  | case5 number line old line' new hne ih => rw [Command.lineDifferences, if_neg hne, ih]; rfl

/-- A change is about the first lines, or about later ones. -/
theorem tells_step (number : Nat) : Tells number old new c
    ↔ (c.number = number ∧ old.head? ≠ new.head? ∧ (if c.added then new else old).head? = some c.line)
      ∨ Tells (number + 1) old.tail new.tail c := by
  constructor
  · rintro ⟨i, hnumber, hne, hline⟩
    cases i with
    | zero => exact .inl ⟨hnumber, by simpa [List.head?_eq_getElem?] using hne, by
        simpa [List.head?_eq_getElem?] using hline⟩
    | succ i =>
        refine .inr ⟨i, by omega, by simpa using hne, ?_⟩
        cases hadded : c.added <;> simpa [hadded] using hline
  · rintro (⟨hnumber, hne, hline⟩ | ⟨i, hnumber, hne, hline⟩)
    · exact ⟨0, hnumber, by simpa [List.head?_eq_getElem?] using hne, by
        simpa [List.head?_eq_getElem?] using hline⟩
    · refine ⟨i + 1, by omega, by simpa using hne, ?_⟩
      cases hadded : c.added <;> simpa [hadded] using hline

theorem mem_between : c ∈ between number old new ↔ Tells number old new c := by
  obtain ⟨added, place, line⟩ := c
  fun_induction between number old new with
  | case1 => simp [Tells]
  | case2 number first old ih =>
      rw [List.mem_cons, ih, tells_step number]
      cases added <;> simp [eq_comm]
  | case3 number first new ih =>
      rw [List.mem_cons, ih, tells_step number]
      cases added <;> simp [eq_comm]
  | case4 number first old new ih =>
      rw [ih, tells_step number]
      simp
  | case5 number first old first' new hne ih =>
      rw [List.mem_cons, List.mem_cons, ih, tells_step number]
      cases added <;> simp [hne, eq_comm]

theorem describes_between (old new : List Text) : Describes (between 1 old new) old new :=
  fun _ => mem_between

theorem length_le_between (number : Nat) (old new : List Text) :
    new.length ≤ old.length + (between number old new).length
      ∧ old.length ≤ new.length + (between number old new).length := by
  fun_induction between number old new <;> simp only [List.length_cons, List.length_nil] at * <;> omega

theorem between_eq_nil_iff (number : Nat) : between number old new = [] ↔ old = new := by
  constructor
  · intro h
    refine List.ext_getElem? fun i => not_not.mp fun hne => ?_
    obtain ⟨c, -, hc⟩ := exists_tells hne number
    simp [← mem_between, h] at hc
  · rintro rfl
    refine List.eq_nil_iff_forall_not_mem.mpr fun c hc => ?_
    obtain ⟨i, -, hne, -⟩ := mem_between.mp hc
    exact hne rfl

end LineChange

/-! ## Texts with the same lines -/

namespace Text

variable {t u : Text}

/-- The second text is the first one with a line feed that ends its last line. -/
def EndedBy (t u : Text) : Prop :=
  u = t ++ ['\n'] ∧ t.getLast? ≠ some '\n'

theorem lines_inj : lines t = lines u ↔ dropFinalNewline t = dropFinalNewline u := by
  have hne (v : Text) : pieces (· == '\n') v ≠ [] := by
    rw [pieces_eq_splitOnP]
    exact List.splitOnP_ne_nil _ v
  refine ⟨fun h => ?_, fun h => by rw [lines_eq, lines_eq, h]⟩
  rw [lines_eq, lines_eq] at h
  split at h
  · rename_i ht
    split at h
    · rename_i hu
      rw [ht, hu]
    · exact absurd h.symm (hne _)
  · split at h
    · exact absurd h (hne _)
    · rw [← join_pieces '\n' (dropFinalNewline t), h, join_pieces]

/-- Two texts have the same lines when one is the other with its last line ended. -/
theorem lines_eq_lines_iff (h : t ≠ u) : lines t = lines u ↔ EndedBy t u ∨ EndedBy u t := by
  rw [lines_inj]
  constructor
  · intro heq
    by_cases ht : t.getLast? = some '\n' <;> by_cases hu : u.getLast? = some '\n'
    · obtain ⟨front, rfl⟩ := List.getLast?_eq_some_iff.mp ht
      obtain ⟨front', rfl⟩ := List.getLast?_eq_some_iff.mp hu
      rw [dropFinalNewline_concat, dropFinalNewline_concat] at heq
      exact absurd (by rw [heq]) h
    · obtain ⟨front, rfl⟩ := List.getLast?_eq_some_iff.mp ht
      rw [dropFinalNewline_concat, dropFinalNewline_of_open hu] at heq
      exact .inr ⟨by rw [heq], hu⟩
    · obtain ⟨front, rfl⟩ := List.getLast?_eq_some_iff.mp hu
      rw [dropFinalNewline_concat, dropFinalNewline_of_open ht] at heq
      exact .inl ⟨by rw [heq], ht⟩
    · rw [dropFinalNewline_of_open ht, dropFinalNewline_of_open hu] at heq
      exact absurd heq h
  · rintro (⟨rfl, ht⟩ | ⟨rfl, hu⟩)
    · rw [dropFinalNewline_concat, dropFinalNewline_of_open ht]
    · rw [dropFinalNewline_concat, dropFinalNewline_of_open hu]

/-- A text with a last line of its own ends with another line only if that is the same. -/
theorem eq_of_line_suffix {front line line' : Text} (hline : '\n' ∉ line) (hline' : '\n' ∉ line')
    (h : '\n' :: line' <:+ front ++ '\n' :: line) : line' = line := by
  obtain ⟨front', h⟩ := h
  have hpieces := congrArg (fun t => (pieces (· == '\n') t).getLast?) h
  have huncut {l : Text} (hl : '\n' ∉ l) : pieces (· == '\n') l = [l] :=
    pieces_of_uncut fun c hc => by simpa using fun heq : c = '\n' => hl (heq ▸ hc)
  simpa [pieces_append_cons, huncut hline, huncut hline'] using hpieces

end Text

/-! ## The command -/

namespace Command

open LineChange (between)

/-- What stands in a report without entries. -/
def onlyLineFeed : Text := "(files differ only in trailing newline)"

/-- What a report shows below its two header lines. -/
def reportLines (old new : Text) : List Text :=
  let changes := between 1 (Text.lines old) (Text.lines new)
  if changes = [] then [onlyLineFeed] else changes.map LineChange.shown

/-- A report on two texts: two header lines, and what is below them. -/
def report (left right old new : Text) : Text :=
  Text.joinLines (("--- /" ++ left) :: ("+++ /" ++ right) :: reportLines old new)

variable {args : Args} {left right old new : Text} {s : ShellState}

theorem reportLines_of_ne_nil (h : between 1 (Text.lines old) (Text.lines new) ≠ []) :
    reportLines old new = (between 1 (Text.lines old) (Text.lines new)).map LineChange.shown :=
  if_neg h

theorem reportLines_of_eq_nil (h : between 1 (Text.lines old) (Text.lines new) = []) :
    reportLines old new = [onlyLineFeed] :=
  if_pos h

theorem filterMap_read?_reportLines (old new : Text) :
    (reportLines old new).filterMap LineChange.read?
      = between 1 (Text.lines old) (Text.lines new) := by
  by_cases h : between 1 (Text.lines old) (Text.lines new) = []
  · rw [reportLines_of_eq_nil h, h]
    rfl
  · rw [reportLines_of_ne_nil h, List.filterMap_map]
    exact (List.filterMap_congr fun c _ => LineChange.read?_shown c).trans List.filterMap_some

theorem newline_not_mem_reportLines : ∀ line ∈ reportLines old new, '\n' ∉ line := by
  intro line hline
  by_cases h : between 1 (Text.lines old) (Text.lines new) = []
  · rw [reportLines_of_eq_nil h] at hline
    rw [List.mem_singleton.mp hline]
    decide
  · rw [reportLines_of_ne_nil h] at hline
    obtain ⟨c, hc, rfl⟩ := List.mem_map.mp hline
    obtain ⟨i, -, -, hc⟩ := LineChange.mem_between.mp hc
    refine LineChange.newline_not_mem_shown (Text.newline_not_mem_lines (t := ?_) ?_)
    · exact if c.added then new else old
    · cases hadded : c.added <;> exact List.mem_of_getElem? (by simpa [hadded] using hc)

/-- Each line below the headers is an entry, or else there are none. -/
theorem isSome_read?_or_eq {line : Text} (hline : line ∈ reportLines old new) :
    (LineChange.read? line).isSome ∨ reportLines old new = [onlyLineFeed] := by
  by_cases h : between 1 (Text.lines old) (Text.lines new) = []
  · exact .inr (reportLines_of_eq_nil h)
  · rw [reportLines_of_ne_nil h] at hline
    obtain ⟨c, -, rfl⟩ := List.mem_map.mp hline
    exact .inl (by rw [LineChange.read?_shown]; rfl)

theorem outcome_compare (hleft : args.text? .left = some left) (hright : args.text? .right = some right)
    (hold : s.Reads left old) (hnew : s.Reads right new) :
    (compare args).outcome s = (.ok (.ok (if old = new then "Files are identical"
      else report (s.shell.resolve (some left)) (s.shell.resolve (some right)) old new)), s) := by
  have hread {path content : Text} (h : s.Reads path content) :
      (Store.read (s.shell.resolve (some path))).outcome s.world = (.ok content, s.world) :=
    Prod.ext h (Store.outcome_read_snd _ _)
  have hdifferences : (if lineDifferences 1 (Text.lines old) (Text.lines new) = []
      then [onlyLineFeed] else lineDifferences 1 (Text.lines old) (Text.lines new))
        = reportLines old new := by
    simp only [LineChange.lineDifferences_eq, List.map_eq_nil_iff]
    rfl
  simp only [compare, hleft, hright, outcome_bind, outcome_resolve, outcome_liftM_world, hread hold,
    hread hnew, outcome_ite]
  split
  · rfl
  · rw [report, ← hdifferences]
    rfl

/-- The report ends with the remark when it has no entries, and then only. -/
theorem onlyLineFeed_suffix_iff :
    '\n' :: onlyLineFeed <:+ report left right old new ↔ Text.lines old = Text.lines new := by
  rw [← LineChange.between_eq_nil_iff 1]
  have hreport {front : List Text} {last : Text} (h : reportLines old new = front ++ [last]) :
      report left right old new
        = Text.joinLines (("--- /" ++ left) :: ("+++ /" ++ right) :: front) ++ '\n' :: last := by
    rw [report, h, ← List.cons_append, ← List.cons_append, Text.joinLines_concat (by simp)]
  by_cases hnil : between 1 (Text.lines old) (Text.lines new) = []
  · have hlines : reportLines old new = [] ++ [onlyLineFeed] := reportLines_of_eq_nil hnil
    rw [hreport hlines]
    simp [hnil]
  · simp only [hnil, iff_false]
    intro hsuffix
    obtain ⟨front, c, hc⟩ := (List.eq_nil_or_concat _).resolve_left hnil
    have hlast : reportLines old new = front.map LineChange.shown ++ [c.shown] := by
      rw [reportLines_of_ne_nil hnil, hc]
      simp
    have hmem : c.shown ∈ reportLines old new := by simp [hlast]
    have hfree : '\n' ∉ c.shown := newline_not_mem_reportLines _ hmem
    rw [hreport hlast] at hsuffix
    have heq : onlyLineFeed = c.shown := Text.eq_of_line_suffix hfree (by decide) hsuffix
    have hread : LineChange.read? onlyLineFeed = none := rfl
    rw [heq, LineChange.read?_shown] at hread
    cases hread

/-- On every two files that can be read, `diff` says that they are identical when they are, and else
shows two header lines and entries below them. The entries turn the lines of the first file into those
of the second one, and with their signs exchanged those of the second one into those of the first.
They are about the numbers at which the lines differ or only one file has a line. The remark on a line
feed at the end stands there when one file is the other with its last line ended. -/
theorem compare_patches (hleft : args.text? .left = some left) (hright : args.text? .right = some right)
    (hold : s.Reads left old) (hnew : s.Reads right new) :
    ∃ out, (compare args).outcome s = (.ok (.ok out), s)
      ∧ (out = "Files are identical" ↔ old = new)
      ∧ (old ≠ new → ∃ entries : List Text,
          out = Text.joinLines (("--- /" ++ s.shell.resolve (some left))
            :: ("+++ /" ++ s.shell.resolve (some right)) :: entries)
          ∧ (∀ line ∈ entries,
              '\n' ∉ line ∧ ((LineChange.read? line).isSome ∨ entries = [onlyLineFeed]))
          ∧ LineChange.apply (entries.filterMap LineChange.read?) (Text.lines old) = Text.lines new
          ∧ LineChange.apply ((entries.filterMap LineChange.read?).map LineChange.reversed)
              (Text.lines new) = Text.lines old
          ∧ ∀ number, (∃ c ∈ entries.filterMap LineChange.read?, c.number = number)
              ↔ 1 ≤ number ∧ (Text.lines old)[number - 1]? ≠ (Text.lines new)[number - 1]?)
      ∧ ('\n' :: onlyLineFeed <:+ out ↔ Text.EndedBy old new ∨ Text.EndedBy new old) := by
  refine ⟨_, outcome_compare hleft hright hold hnew, ?_⟩
  by_cases heq : old = new
  · subst heq
    have hended : ¬Text.EndedBy old old := fun h => by simpa using h.1
    rw [if_pos rfl]
    refine ⟨by simp, fun hne => absurd rfl hne, ?_⟩
    simp only [hended, or_self, iff_false]
    decide
  · have hchanges := LineChange.describes_between (Text.lines old) (Text.lines new)
    have hlength := LineChange.length_le_between 1 (Text.lines old) (Text.lines new)
    rw [if_neg heq, onlyLineFeed_suffix_iff, Text.lines_eq_lines_iff heq]
    refine ⟨⟨fun h => ?_, fun h => absurd h heq⟩, fun _ => ?_, Iff.rfl⟩
    · have hhead : (report (s.shell.resolve (some left)) (s.shell.resolve (some right)) old new).head?
          = some '-' := by simp [report, Text.joinLines, Text.join]
      rw [h] at hhead
      exact absurd hhead (by decide)
    · refine ⟨reportLines old new, rfl, fun line hline => ?_, ?_⟩
      · exact ⟨newline_not_mem_reportLines line hline, isSome_read?_or_eq hline⟩
      · rw [filterMap_read?_reportLines]
        refine ⟨hchanges.apply_eq hlength.1, ?_, fun number => ?_⟩
        · exact hchanges.reversed.apply_eq (by simpa using hlength.2)
        · exact hchanges.exists_number_iff number

/-- Two files, the second one with a line less. -/
def twoFiles : ShellState :=
  ⟨{}, .ofMemory { tree := .file ['a'] "x\ny" (.file ['b'] "- 1: x\n" .empty), quota := 20 } {} {}⟩

/-- Lines that look like entries do not mislead the reader of a report. -/
theorem compare_patches_two :
    ∃ entries, (compare [(.left, .text ['a']), (.right, .text ['b'])]).outcome twoFiles
        = (.ok (.ok (Text.joinLines ("--- /a".toList :: "+++ /b".toList :: entries))), twoFiles)
      ∧ LineChange.apply (entries.filterMap LineChange.read?) ["x", "y"] = ["- 1: x".toList] := by
  obtain ⟨out, hout, -, hentries, -⟩ := @compare_patches
    [(.left, .text ['a']), (.right, .text ['b'])] ['a'] ['b'] "x\ny" "- 1: x\n" twoFiles rfl rfl rfl rfl
  obtain ⟨entries, rfl, -, hpatch, -⟩ := hentries (by decide)
  exact ⟨entries, hout, hpatch⟩

end Command

end PipeShell
