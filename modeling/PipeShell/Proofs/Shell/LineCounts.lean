import PipeShell.Proofs.Args.LastCount
import PipeShell.Proofs.Shell.Answers
import PipeShell.Proofs.Shell.FromPipe
import PipeShell.Proofs.Store.Quota

/-!
# Counts of lines

All ways to ask for a number of lines get one answer, whether the count stands before or behind the
file or the file is piped, and also when the file cannot be read. Of several counts the last one
holds.
-/

namespace PipeShell

open PipeShell.Action
open Args (fileForms pipeForms counts isFlag)
open Numeral (IsNumeral number)

namespace Command

variable {v : Verb} {args : Args} {path : Text} {s : ShellState}

/-- The answer that shows lines of a content: the first ones, or the last ones for `tail`. -/
def shownLines (v : Verb) (count : Option Value) (content : Text) : Result :=
  .ok (Text.joinLines (window (v = .tail) (lineCount count) (Text.lines content)))

theorem ofVerb_lineRange (hv : v = .head ∨ v = .tail) (args : Args) (piped : Option Text) :
    ofVerb v args piped = lineWindow (v = .tail) args piped := by
  rcases hv with rfl | rfl <;> rfl

theorem fst_outcome_lineWindow_named (hpath : args.text? .path = some path) (v : Verb)
    (s : ShellState) :
    ((lineWindow (v = .tail) args none).outcome s).1
      = (s.readAt path).map (shownLines v (args.get? .lines)) := by
  simp only [lineWindow, hpath]
  rw [← bind_assoc, outcome_bind, outcome_read_resolved]
  cases s.readAt path <;> rfl

/-- The lines of an answer to a number of lines: ten for zero, and not more than there are. -/
structure ShowsLines (v : Verb) (n : Nat) (content : Text) (shown : List Text) : Prop where
  length : shown.length = min (if 0 < n then n else 10) (Text.lines content).length
  first : v = .head → shown <+: Text.lines content
  last : v = .tail → shown <:+ Text.lines content

theorem showsLines_window (hv : v = .head ∨ v = .tail) (n : Nat) (content : Text) :
    ShowsLines v n content
      (window (v = .tail) (lineCount (some (.number n))) (Text.lines content)) := by
  have hcount : lineCount (some (.number n)) = if 0 < n then n else 10 := by
    simp [lineCount, defaultLines]
  rw [hcount]
  rcases hv with rfl | rfl
  · exact ⟨List.length_take, fun _ => List.take_prefix _ _, fun h => by simp at h⟩
  · refine ⟨?_, fun h => by simp at h, fun _ => List.drop_suffix _ _⟩
    simp only [window, decide_true, if_true, List.length_drop]
    omega

end Command

namespace Shell

open Command

variable {s : ShellState} {m : Memory} {v : Verb} {args : Args} {path p d : Text}
  {tokens : List Text} {count : Option Value}

theorem fst_runStage_named (hv : v = .head ∨ v = .tail) (hrun : s.shell.CanRun v)
    (hlimit : s.shell.maxOutput = none) (hpath : args.text? .path = some path) :
    (runStage ⟨v, args⟩ none s).1
      = .ofAttempt v ((s.readAt path).map (shownLines v (args.get? .lines))) := by
  refine Handlers.fst_runStage hrun hlimit fun records => ?_
  rw [ite_self, ofVerb_lineRange hv, fst_outcome_lineWindow_named hpath, ShellState.readAt_noted]

theorem fst_runStage_piped (hv : v = .head ∨ v = .tail) (hrun : s.shell.CanRun v)
    (hlimit : s.shell.maxOutput = none) (hcount : pipedCount args = .ok count) (content : Text) :
    (runStage ⟨v, args⟩ (some content) s).1 = shownLines v count content := by
  have haware : v.isPipeAware = true := by rcases hv with rfl | rfl <;> rfl
  change _ = Result.ofAttempt v (.ok (shownLines v count content))
  refine Handlers.fst_runStage hrun hlimit fun records => ?_
  rw [if_pos haware, ofVerb_lineRange hv, outcome_lineWindow_piped, hcount]
  rfl

theorem fst_runStage_concatenate (hrun : s.shell.CanRun .concatenate)
    (hlimit : s.shell.maxOutput = none) (hpaths : args.sourcePaths = [path]) :
    (runStage ⟨.concatenate, args⟩ none s).1
      = .ofAttempt .concatenate ((s.readAt path).map .ok) := by
  refine Handlers.fst_runStage hrun hlimit fun records => ?_
  rw [ite_self, ofVerb, concatenate, outcome_withInput, ShellState.inputText_noted,
    ShellState.inputText_one hpaths]
  cases s.readAt path <;> rfl

/-- A reading that fails in memory does so as expected. -/
theorem isExpected_of_readAt (hw : s.world.backing = .memory m)
    (hf : s.world.faults.brokenReads = none) {f : Failure} (h : s.readAt path = .error f) :
    f.isExpected = true := by
  rw [ShellState.readAt, Store.outcome_read hw hf] at h
  exact (Memory.read_eq_error h).isExpected

/-- A line range of a piped file answers like a line range of the file. -/
theorem fst_runStages_piped (hv : v = .head ∨ v = .tail) (hrun : s.shell.CanRun v)
    (hcat : s.shell.CanRun .concatenate) (hlimit : s.shell.maxOutput = none)
    (hw : s.world.backing = .memory m) (hf : s.world.faults.brokenReads = none)
    (hcount : pipedCount args = .ok count) (path : Text) :
    (runStages 0 none (.ok []) [⟨.concatenate, [(.path, .text path)]⟩, ⟨v, args⟩] s).1
      = .ofAttempt v ((s.readAt path).map (shownLines v count)) := by
  have hfirst := fst_runStage_concatenate hcat hlimit
    (show Args.sourcePaths [(.path, .text path)] = [path] from rfl)
  rw [fst_runStages_pair, hfirst]
  cases hread : s.readAt path with
  | error f =>
      -- The message of an expected failure does not name the verb that failed.
      have hexpected := isExpected_of_readAt hw hf hread
      simp [Except.map, Result.ofAttempt, hexpected, Result.fail]
  | ok content =>
      exact (if_pos rfl).trans (fst_runStage_piped hv (canRun_runStage hrun _ none)
        ((maxOutput_runStage _ none s).trans hlimit) hcount content)

/-! ## All ways to give a count -/

theorem parse_lineRange (hv : v = .head ∨ v = .tail) (tokens : List Text) :
    Args.parse v tokens = Args.lineRange tokens [] := by
  rcases hv with rfl | rfl <;> rfl

theorem parse_concatenate (hp : isFlag p = false) :
    Args.parse .concatenate [p] = .ok [(.path, .text p)] := by
  simp [Args.parse, Args.pathOrPaths, Args.operands, hp]

theorem get?_lines_of_counts (hv : v = .head ∨ v = .tail) (hargs : Args.parse v tokens = .ok args)
    {n : Nat} (hlast : (counts false tokens).getLast? = some n) :
    args.get? .lines = some (.number n) := by
  rw [parse_lineRange hv] at hargs
  have hnew : Args.has [] .path = false := rfl
  rw [Args.lines_lineRange hargs, hnew, Args.latest, hlast, Option.map_some, Option.some_or]

theorem pipedCount_pipeForms (hd : IsNumeral d) (h : tokens ∈ pipeForms d) :
    ∃ args, Args.lineRange tokens [] = .ok args
      ∧ pipedCount args = .ok (some (.number (number d))) := by
  rcases Args.lineRange_pipeForms hd h with hargs | hargs
  · refine ⟨_, hargs, ?_⟩
    have hpath : Args.text? [(.path, .text d)] .path = some d := rfl
    have hlines : Args.get? [(.path, .text d)] .lines = none := rfl
    rw [pipedCount, hpath, hlines]
    simp only [hd.count?_eq]
    rfl
  · exact ⟨_, hargs, rfl⟩

/-- All ways to ask `head` or `tail` for a number of lines of a file get one answer: with the count
in front of the file or behind it, and with the file piped. Where there are several counts, the last
one says the number. The answer shows that many lines of what the file holds, ten lines for zero. -/
theorem lineRange_forms (hv : v = .head ∨ v = .tail) (hrun : s.shell.CanRun v)
    (hcat : s.shell.CanRun .concatenate) (hlimit : s.shell.maxOutput = none)
    (hw : s.world.backing = .memory m) (hf : s.world.faults.brokenReads = none)
    (hp : isFlag p = false) (hd : IsNumeral d) :
    ∃ r, (∀ tokens ∈ fileForms d p, answer s [(v, tokens)] = .ok r)
      ∧ (∀ tokens ∈ pipeForms d, answer s [(.concatenate, [p]), (v, tokens)] = .ok r)
      ∧ (∀ tokens args, Args.parse v tokens = .ok args →
          (counts false tokens).getLast? = some (number d) →
          (args.text? .path = some p → answer s [(v, tokens)] = .ok r)
            ∧ answer s [(.concatenate, [p]), (v, tokens)] = .ok r)
      ∧ ∀ content, s.Reads p content →
          ∃ shown, r = .ok (Text.joinLines shown) ∧ ShowsLines v (number d) content shown := by
  have hdirect {tokens args} (hargs : Args.parse v tokens = .ok args)
      (hpath : args.text? .path = some p) (hcount : args.get? .lines = some (.number (number d))) :
      answer s [(v, tokens)]
        = .ok (.ofAttempt v ((s.readAt p).map (shownLines v (some (.number (number d)))))) := by
    rw [answer_eq (.cons (Stage.ofTokens_eq hargs) .nil), runStages, Handlers.fst_runStages_single,
      fst_runStage_named hv hrun hlimit hpath, hcount]
  have hpiped {tokens args} (hargs : Args.parse v tokens = .ok args)
      (hcount : pipedCount args = .ok (some (.number (number d)))) :
      answer s [(.concatenate, [p]), (v, tokens)]
        = .ok (.ofAttempt v ((s.readAt p).map (shownLines v (some (.number (number d)))))) := by
    have hfirst := Stage.ofTokens_eq (parse_concatenate hp)
    rw [answer_eq (.cons hfirst (.cons (Stage.ofTokens_eq hargs) .nil)),
      fst_runStages_piped hv hrun hcat hlimit hw hf hcount]
  refine ⟨.ofAttempt v ((s.readAt p).map (shownLines v (some (.number (number d))))),
    ?_, ?_, ?_, ?_⟩
  · intro tokens htokens
    obtain ⟨args, hargs, hpath, hcount⟩ := Args.lineRange_fileForms hd hp htokens
    exact hdirect ((parse_lineRange hv tokens).trans hargs) hpath hcount
  · intro tokens htokens
    obtain ⟨args, hargs, hcount⟩ := pipedCount_pipeForms hd htokens
    exact hpiped ((parse_lineRange hv tokens).trans hargs) hcount
  · intro tokens args hargs hlast
    have hcount := get?_lines_of_counts hv hargs hlast
    refine ⟨fun hpath => hdirect hargs hpath hcount, hpiped hargs ?_⟩
    rw [pipedCount_eq (.inl (by simp [Args.has, hcount])), hcount]
  · intro content hread
    refine ⟨_, ?_, showsLines_window hv (number d) content⟩
    rw [show s.readAt p = .ok content from hread]
    rfl

/-- A file of three lines. -/
def threeLines : ShellState :=
  ⟨{}, .ofMemory { tree := .file ['f'] "x\ny\nz" .empty, quota := 10 } {} {}⟩

/-- The last two lines of a file, in three ways. -/
theorem lineRange_forms_two :
    answer threeLines [(.tail, ["f", "-02"])] = .ok (.ok "y\nz")
      ∧ answer threeLines [(.concatenate, ["f"]), (.tail, ["02"])] = .ok (.ok "y\nz")
      ∧ answer threeLines [(.tail, ["-1", "f", "7", "-n", "02", "-x"])] = .ok (.ok "y\nz") := by
  have hnumeral : IsNumeral "02" := ⟨by decide, List.all_eq_true.mp rfl, by decide⟩
  obtain ⟨r, hfile, hpipe, hlast, hread⟩ := @lineRange_forms threeLines
    { tree := .file ['f'] "x\ny\nz" .empty, quota := 10 } .tail "f" "02" (.inr rfl) ⟨rfl, rfl⟩
    ⟨rfl, rfl⟩ rfl rfl rfl rfl hnumeral
  obtain rfl : Result.ok "y\nz" = r := Except.ok.inj
    ((show answer threeLines [(.tail, ["f", "-02"])] = .ok (.ok "y\nz") from rfl).symm.trans
      (hfile ["f", "-02"] (by simp [fileForms])))
  exact ⟨rfl, hpipe ["02"] (by simp [pipeForms]),
    (hlast ["-1", "f", "7", "-n", "02", "-x"] _ rfl rfl).1 rfl⟩

end Shell

end PipeShell
