import Mathlib.Algebra.Ring.Nat
import PipeShell.Proofs.Number.Front
import PipeShell.Proofs.Shell.SortedOnce

/-!
# Run lengths

`uniq` shows one line for each run of equal neighbours, and with counts its output tells all lines of
the input: the count can be read off each line, however wide it is and whatever the line starts with.
-/

namespace PipeShell

open PipeShell.Action

/-- A line, and how often it stands in a row. -/
structure CountedLine where
  count : Nat
  line : Text
  deriving DecidableEq, Repr

namespace CountedLine

/-- The line behind its count, which blanks fill up to seven characters. -/
def shown (r : CountedLine) : Text :=
  Text.padLeft 7 (Text.ofNat r.count) ++ ' ' :: r.line

/-- What a shown line says: after blanks a count, and after one more blank the line. -/
def read (t : Text) : CountedLine :=
  let (count, rest) := Text.numberInFront (t.dropWhile (· = ' '))
  ⟨count, rest.drop 1⟩

/-- What the lines of an output with counts say. -/
def readAll (out : Text) : List CountedLine :=
  (Text.lines out).map read

/-- The lines that the counts stand for. -/
def expand (code : List CountedLine) : List Text :=
  code.flatMap fun r => List.replicate r.count r.line

theorem read_shown (r : CountedLine) : read r.shown = r := by
  have hblanks : r.shown.dropWhile (· = ' ') = Text.ofNat r.count ++ ' ' :: r.line := by
    rw [shown, Text.padLeft, List.append_assoc,
      List.dropWhile_append_of_pos fun c hc => by simp [List.eq_of_mem_replicate hc]]
    obtain ⟨d, digits, hd⟩ := List.exists_cons_of_ne_nil (Text.ofNat_ne_nil r.count)
    have hdigit : d.isDigit = true := Text.isDigit_of_mem_ofNat (n := r.count) (by simp [hd])
    have hne : d ≠ ' ' := by
      rintro rfl
      exact absurd hdigit (by decide)
    rw [hd, List.cons_append, List.dropWhile_cons_of_neg (by simpa using hne)]
  rw [read, hblanks, Text.numberInFront_ofNat_append r.count (by simp)]
  rfl

theorem newline_not_mem_shown {r : CountedLine} (h : '\n' ∉ r.line) : '\n' ∉ r.shown := by
  intro hmem
  simp only [shown, Text.padLeft, List.append_assoc, List.mem_append, List.mem_cons] at hmem
  rcases hmem with hblank | hdigit | hblank | hline
  · exact absurd (List.eq_of_mem_replicate hblank) (by decide)
  · exact absurd (Text.isDigit_of_mem_ofNat hdigit) (by decide)
  · exact absurd hblank (by decide)
  · exact h hline

/-- Shown lines are never blank, so that none of them gets lost at the end of an output. -/
theorem readAll_joinLines {code : List CountedLine} (h : ∀ r ∈ code, '\n' ∉ r.line) :
    readAll (Text.joinLines (code.map shown)) = code := by
  have hfree : ∀ line ∈ code.map shown, '\n' ∉ line := by
    intro line hline
    obtain ⟨r, hr, rfl⟩ := List.mem_map.mp hline
    exact newline_not_mem_shown (h r hr)
  have hlast : (code.map shown).getLast? ≠ some [] := by
    intro hlast
    obtain ⟨r, -, hr⟩ := List.mem_map.mp (List.mem_of_getLast? hlast)
    simp [shown] at hr
  rw [readAll, Text.lines_joinLines_of_last hfree hlast, List.map_map]
  exact (List.map_congr_left fun r _ => read_shown r).trans (List.map_id code)

end CountedLine

/-! ## Runs and their lengths -/

section Runs

variable {κ : Type} {key : Text → κ} {ls run : List Text} {code : List CountedLine}
  {r : CountedLine}

/-- The lines have one key, and the counted line tells the first of them and their number. -/
structure CountedLine.Counts (key : Text → κ) (run : List Text) (r : CountedLine) : Prop where
  first : run.head? = some r.line
  length : run.length = r.count
  alike : ∀ line ∈ run, key line = key r.line

/-- `code` counts the runs of neighbours with one key in `ls`, none of which could be longer. -/
structure RunLengths (key : Text → κ) (ls : List Text) (code : List CountedLine) : Prop where
  cut : ∃ runs : List (List Text), runs.flatten = ls
    ∧ List.Forall₂ (CountedLine.Counts key) runs code
  apart : code.IsChain fun a b => key a.line ≠ key b.line

theorem CountedLine.Counts.pos (h : r.Counts key run) : 1 ≤ r.count := by
  rw [← h.length]
  exact List.length_pos_of_mem (List.mem_of_mem_head? h.first)

theorem CountedLine.Counts.eq_replicate (hkey : Function.Injective key) (h : r.Counts key run) :
    run = List.replicate r.count r.line :=
  List.eq_replicate_iff.mpr ⟨h.length, fun line hline => hkey (h.alike line hline)⟩

namespace RunLengths

variable (h : RunLengths key ls code)
include h

theorem pos_and_mem : ∀ r ∈ code, 1 ≤ r.count ∧ r.line ∈ ls := by
  obtain ⟨⟨runs, rfl, hruns⟩, -⟩ := h
  induction hruns with
  | nil => simp
  | @cons run r runs code hrun _ ih =>
      intro r' hr'
      rcases List.mem_cons.mp hr' with rfl | hr'
      · exact ⟨hrun.pos, by simp [List.mem_of_mem_head? hrun.first]⟩
      · exact (ih r' hr').imp_right fun hmem => by simp [List.mem_flatten.mp hmem]

theorem sum_counts : (code.map (·.count)).sum = ls.length := by
  obtain ⟨⟨runs, rfl, hruns⟩, -⟩ := h
  induction hruns with
  | nil => rfl
  | cons hrun _ ih => simp [ih, hrun.length]

theorem expand_eq (hkey : Function.Injective key) : CountedLine.expand code = ls := by
  obtain ⟨⟨runs, rfl, hruns⟩, -⟩ := h
  induction hruns with
  | nil => rfl
  | cons hrun _ ih => rw [List.flatten_cons, ← ih, hrun.eq_replicate hkey]; rfl

end RunLengths

/-- The length of a run with its first line. -/
def CountedLine.ofRun (run : List Text) : CountedLine :=
  ⟨run.length, run.headD []⟩

theorem runLengths_lineRuns [DecidableEq κ] (key : Text → κ) :
    ∀ ls, RunLengths key ls ((lineRuns key ls).map CountedLine.ofRun)
  | [] => ⟨⟨[], rfl, .nil⟩, .nil⟩
  | line :: ls => by
      -- The first run ends where a line has another key, and the other runs are those from there on.
      obtain ⟨⟨runs, hflatten, hruns⟩, hapart⟩ :=
        runLengths_lineRuns key (ls.dropWhile (key · = key line))
      have hnot := List.head?_dropWhile_not (key · = key line) ls
      rw [lineRuns_cons, List.map_cons]
      refine ⟨⟨(line :: ls.takeWhile (key · = key line)) :: runs, ?_, .cons ?_ hruns⟩, ?_⟩
      · rw [List.flatten_cons, hflatten, List.cons_append, List.takeWhile_append_dropWhile]
      · refine ⟨rfl, rfl, fun a ha => ?_⟩
        rcases List.mem_cons.mp ha with rfl | ha
        · rfl
        · exact key_of_mem_takeWhile ha
      · generalize ls.dropWhile (key · = key line) = later at hapart hnot
        cases later with
        | nil => exact .singleton _
        | cons next later =>
            rw [lineRuns_cons] at hapart ⊢
            have hne : key next ≠ key line := by simpa using hnot
            exact .cons_cons hne.symm hapart
  termination_by ls => ls.length
  decreasing_by
    exact Nat.lt_succ_of_le (List.dropWhile_sublist _).length_le

end Runs

/-! ## Merging -/

/-- The third list merges the first two: it goes on with the next element of one or the other. -/
inductive Interleaved {α : Type} : List α → List α → List α → Prop
  | nil : Interleaved [] [] []
  | left {a : α} {as bs cs : List α} : Interleaved as bs cs → Interleaved (a :: as) bs (a :: cs)
  | right {b : α} {as bs cs : List α} : Interleaved as bs cs → Interleaved as (b :: bs) (b :: cs)

/-- Where just one of two tests holds of each element, what the two select merges to the list. -/
theorem interleaved_filter {α : Type} {p q : α → Bool} {as : List α}
    (h : ∀ a ∈ as, q a = !p a) : Interleaved (as.filter p) (as.filter q) as := by
  induction as with
  | nil => exact .nil
  | cons a as ih =>
      obtain ⟨ha, has⟩ := List.forall_mem_cons.mp h
      cases hp : p a with
      | true =>
          rw [List.filter_cons_of_pos hp, List.filter_cons_of_neg (by simp [ha, hp])]
          exact .left (ih has)
      | false =>
          rw [List.filter_cons_of_neg (by simp [hp]), List.filter_cons_of_pos (by simp [ha, hp])]
          exact .right (ih has)

/-! ## The command -/

namespace Args

/-- The flags let the command show the run. -/
def keepsRun (args : Args) (r : CountedLine) : Bool :=
  decide ((args.holds .duplicatesOnly → 2 ≤ r.count) ∧ (args.holds .uniqueOnly → r.count = 1))

/-- How the flags let the command show a run. -/
def showsRun (args : Args) (r : CountedLine) : Text :=
  if args.holds .count then r.shown else r.line

end Args

namespace Command

/-- What decides whether lines are equal. -/
def runKey (ignoreCase : Bool) (line : Text) : Text :=
  if ignoreCase then Text.foldCase line else line

theorem outcome_deduplicate_given {args : Args} {piped : Option Text} {content : Text}
    {s : ShellState} (hinput : s.inputText args piped = .ok (some content)) :
    (deduplicate args piped).outcome s = (.ok (.ok (Text.joinLines
      ((((lineRuns (runKey (args.holds .ignoreCase)) (Text.lines content)).map
        CountedLine.ofRun).filter args.keepsRun).map args.showsRun))), s) := by
  have hkeeps : ∀ run ∈ lineRuns (runKey (args.holds .ignoreCase)) (Text.lines content),
      (!(args.holds .duplicatesOnly && run.length < 2)
        && !(args.holds .uniqueOnly && 1 < run.length)) = (args.keepsRun ∘ CountedLine.ofRun) run := by
    intro run hrun
    have hpos := List.length_pos_of_ne_nil (List.ne_nil_of_mem_splitBy hrun)
    rw [Bool.eq_iff_iff, Function.comp_apply, Args.keepsRun, decide_eq_true_iff, CountedLine.ofRun]
    cases args.holds .duplicatesOnly <;> cases args.holds .uniqueOnly <;> simp <;> omega
  have hshown : runLine (args.holds .count) = args.showsRun ∘ CountedLine.ofRun := by
    funext run
    simp only [runLine, Function.comp_apply, Args.showsRun, CountedLine.ofRun, CountedLine.shown]
    split
    · rw [List.append_assoc]
      rfl
    · rfl
  rw [List.filter_map, List.map_map, ← hshown, ← List.filter_congr hkeeps, deduplicate,
    outcome_withInput, hinput]
  rfl

/-- On every text, `uniq` shows its runs of equal lines: those that the flags let it show, by their
first lines, and with their counts on request. The runs that stand more than once and those that
stand once merge to all runs, and the counts add up to the number of lines. With counts the output
can be read back, and with regard to case it tells all lines of the text. -/
theorem deduplicate_runLengths (content : Text) (ignoreCase : Bool) :
    ∃ code : List CountedLine,
      RunLengths (runKey ignoreCase) (Text.lines content) code
      ∧ (∀ r ∈ code, 1 ≤ r.count)
      ∧ (code.map (·.count)).sum = (Text.lines content).length
      ∧ (ignoreCase = false →
          CountedLine.expand code = Text.lines content ∧ code.IsChain (·.line ≠ ·.line))
      ∧ Interleaved (code.filter (2 ≤ ·.count)) (code.filter (·.count = 1)) code
      ∧ ∀ (args : Args) (piped : Option Text) (s : ShellState),
          s.inputText args piped = .ok (some content) → args.holds .ignoreCase = ignoreCase →
            ∃ out, (deduplicate args piped).outcome s = (.ok (.ok out), s)
              ∧ out = Text.joinLines ((code.filter args.keepsRun).map args.showsRun)
              ∧ (args.holds .count = true →
                  CountedLine.readAll out = code.filter args.keepsRun)
              ∧ (args.holds .count = true → args.holds .duplicatesOnly = false →
                  args.holds .uniqueOnly = false → ignoreCase = false →
                    CountedLine.expand (CountedLine.readAll out) = Text.lines content) := by
  have hcode := runLengths_lineRuns (runKey ignoreCase) (Text.lines content)
  generalize hruns : (lineRuns (runKey ignoreCase) (Text.lines content)).map CountedLine.ofRun
    = code at hcode
  have hmem := hcode.pos_and_mem
  have hexact (hcase : ignoreCase = false) : CountedLine.expand code = Text.lines content := by
    subst hcase
    exact hcode.expand_eq fun a b h => h
  refine ⟨code, hcode, fun r hr => (hmem r hr).1, hcode.sum_counts, fun hcase => ?_, ?_, ?_⟩
  · subst hcase
    exact ⟨hexact rfl, hcode.apart⟩
  · refine interleaved_filter fun r hr => ?_
    have hpos := (hmem r hr).1
    rw [← decide_not, decide_eq_decide]
    omega
  · rintro args piped s hinput rfl
    have hread (hcount : args.holds .count = true) : CountedLine.readAll
        (Text.joinLines ((code.filter args.keepsRun).map args.showsRun))
          = code.filter args.keepsRun := by
      have hshows : args.showsRun = CountedLine.shown := by
        funext r
        simp [Args.showsRun, hcount]
      rw [hshows]
      refine CountedLine.readAll_joinLines fun r hr => ?_
      exact Text.newline_not_mem_lines (hmem r (List.mem_filter.mp hr).1).2
    refine ⟨_, outcome_deduplicate_given hinput, by rw [hruns], fun hcount => ?_, ?_⟩
    · rw [hruns, hread hcount]
    · intro hcount hall hall' hcase
      have hkept : code.filter args.keepsRun = code :=
        List.filter_eq_self.mpr fun r _ => by simp [Args.keepsRun, hall, hall']
      rw [hruns, hread hcount, hkept, hexact hcase]

/-- Lines that start with blanks and digits come back from the counted ones. -/
theorem deduplicate_runLengths_counted :
    ∃ out, (deduplicate [(.count, .flag true)] (some " 2 a\n 2 a\n3\n")).outcome Shell.singleState
        = (.ok (.ok out), Shell.singleState)
      ∧ CountedLine.expand (CountedLine.readAll out) = [" 2 a", " 2 a", "3"] := by
  obtain ⟨code, -, -, -, -, -, hout⟩ := deduplicate_runLengths " 2 a\n 2 a\n3\n" false
  obtain ⟨out, hrun, -, -, hback⟩ :=
    hout [(.count, .flag true)] (some " 2 a\n 2 a\n3\n") Shell.singleState rfl rfl
  exact ⟨out, hrun, (hback rfl rfl rfl rfl).trans (by decide)⟩

end Command

end PipeShell
