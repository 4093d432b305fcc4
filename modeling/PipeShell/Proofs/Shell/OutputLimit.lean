import PipeShell.Proofs.Shell.Debug

/-!
# Limits on outputs

A shell with a limit hands no longer text on than that, to a stage or to its caller; only the
description of a pipeline may stand above. A stage that puts out more fails, and none runs after it.
-/

namespace PipeShell

open Shell (limitOutput)

/-- The text has no more bytes than the limit. -/
def Text.Fits (t : Text) (limit : Int) : Prop :=
  (byteLength t : Int) ≤ limit

/-- What a shell says of outputs over the limit. -/
def Shell.overLimit (limit : Int) : Text :=
  "Output limit (" ++ Text.ofInt limit ++ " bytes) exceeded"

namespace StageRun

/-- What the command of the stage puts out, before any limit: nothing if its verb may not run, or if
it fails. -/
def written? (run : StageRun) : Option Text :=
  if run.found.shell.commands.contains run.stage.verb && run.found.shell.allows run.stage.verb then
    match ((Command.ofVerb run.stage.verb run.stage.args
      (if run.stage.verb.isPipeAware then run.before else none)).outcome
      (run.found.noted [Shell.stageRecord run.stage run.before])).1 with
    | .ok r => some r.output
    | .error _ => none
  else none

/-- The stage keeps to the limit: what is piped into it and what it answers fits, and it fails where
its command puts out more. -/
structure KeepsTo (limit : Int) (run : StageRun) : Prop where
  piped : ∀ t ∈ run.before, t.Fits limit
  answered : run.answer.output.Fits limit
  cut : ∀ t ∈ run.written?, ¬t.Fits limit → run.answer = .fail (Shell.overLimit limit)

end StageRun

namespace Shell

variable {limit : Int} {stage : Stage} {before : Option Text} {s : ShellState} {r : Result}

/-- The line keeps to the limit: its stages do, none runs behind one that puts out more, whose error
is then that of the line; and what the shell answers fits, except for the description above it. -/
structure KeepsTo (limit : Int) (line : Text) (s : ShellState) : Prop where
  stages : ∀ run ∈ lineStages line s, run.KeepsTo limit
  last : ∀ front run back, lineStages line s = front ++ run :: back →
    ∀ t ∈ run.written?, ¬t.Fits limit →
      back = [] ∧ ∃ r, ((exec line).outcome s).1 = .ok r ∧ r.error = some (overLimit limit)
  answered : ∀ r, ((exec line).outcome s).1 = .ok r →
    ∃ plain : Result, plain.output.Fits limit
      ∧ r = if s.shell.debug then described line plain else plain

/-! ## Stages -/

theorem fits_nil (hlimit : 0 ≤ limit) : Text.Fits [] limit := hlimit

theorem limitOutput_of_fits (h : r.output.Fits limit) : limitOutput (some limit) r = r := if_pos h

theorem limitOutput_of_not_fits (h : ¬r.output.Fits limit) :
    limitOutput (some limit) r = .fail (overLimit limit) := if_neg h

theorem fits_limitOutput (hlimit : 0 ≤ limit) (r : Result) :
    (limitOutput (some limit) r).output.Fits limit := by
  by_cases h : r.output.Fits limit
  · rwa [limitOutput_of_fits h]
  · rw [limitOutput_of_not_fits h]
    exact fits_nil hlimit

theorem fits_runStage (hlimit : 0 ≤ limit) (hs : s.shell.maxOutput = some limit) (stage : Stage)
    (before : Option Text) : (runStage stage before s).1.output.Fits limit := by
  have hran := ran_runStage stage before s
  generalize (runStage stage before s).1 = r at hran ⊢
  generalize (runStage stage before s).2 = t at hran
  cases hran with
  | answered =>
      rw [hs]
      exact fits_limitOutput hlimit _
  | unknown | disabled | refused | broken => exact fits_nil hlimit

theorem keepsTo_runStage (hlimit : 0 ≤ limit) (hs : s.shell.maxOutput = some limit)
    (hbefore : ∀ t ∈ before, t.Fits limit) (stage : Stage) :
    StageRun.KeepsTo limit ⟨stage, before, s, (runStage stage before s).1⟩ where
  piped := hbefore
  answered := fits_runStage hlimit hs stage before
  cut := by
    intro t ht hlong
    rw [StageRun.written?] at ht
    split at ht
    · rename_i hcan
      obtain ⟨hknown, hallowed⟩ := Bool.and_eq_true_iff.mp hcan
      change (runStage stage before s).1 = _
      rw [runStage, Handlers.runStage_recorded, if_neg (by simpa using hknown),
        if_neg (by simpa using hallowed)]
      generalize hout : (Command.ofVerb stage.verb stage.args _).outcome _ = out at ht
      obtain ⟨answer, u⟩ := out
      cases answer with
      | error f => cases ht
      | ok r =>
          obtain rfl : r.output = t := Option.some.inj ht
          rw [Handlers.runCommand_ok hout]
          change limitOutput s.shell.maxOutput r = _
          rw [hs, limitOutput_of_not_fits hlong]
    · cases ht

/-- No stage runs behind one that fails. -/
theorem stageRuns_stop {front back : List StageRun} {run : StageRun} {stages : List Stage}
    (h : Handlers.stageRuns Command.ofVerb before stages s = front ++ run :: back)
    (he : run.answer.error ≠ none) : back = [] := by
  induction stages generalizing before s front with
  | nil => simp [Handlers.stageRuns] at h
  | cons stage rest ih =>
      generalize hrun : Handlers.runStage Command.ofVerb stage before s = out at h
      obtain ⟨r, t⟩ := out
      by_cases hr : r.error = none
      · rw [Handlers.stageRuns_passed hrun hr] at h
        cases front with
        | nil =>
            obtain ⟨rfl, -⟩ := List.cons.inj h
            exact absurd hr he
        | cons first front => exact ih (List.cons.inj h).2
      · rw [Handlers.stageRuns_failed hrun hr] at h
        cases front with
        | nil => exact (List.cons.inj h).2.symm
        | cons first front => simp at h

theorem keepsTo_stageRuns (hlimit : 0 ≤ limit) {stages : List Stage}
    (hs : s.shell.maxOutput = some limit) (hbefore : ∀ t ∈ before, t.Fits limit) :
    ∀ run ∈ Handlers.stageRuns Command.ofVerb before stages s, run.KeepsTo limit := by
  induction stages generalizing before s with
  | nil => simp [Handlers.stageRuns]
  | cons stage rest ih =>
      have hfirst := keepsTo_runStage hlimit hs hbefore stage
      obtain ⟨cwd, hshell⟩ := shell_runStage stage before s
      generalize hrun : runStage stage before s = out at hfirst hshell
      obtain ⟨r, t⟩ := out
      by_cases hr : r.error = none
      · rw [Handlers.stageRuns_passed hrun hr, List.forall_mem_cons]
        have ht : t.shell.maxOutput = some limit := by rw [hshell]; exact hs
        exact ⟨hfirst, ih ht (by simpa using hfirst.answered)⟩
      · rw [Handlers.stageRuns_failed hrun hr]
        simpa using hfirst

/-! ## Lines -/

theorem keepsTo_runnable (hlimit : 0 ≤ limit) (hs : s.shell.maxOutput = some limit) {line : Text}
    {p : Pipeline} (hread : Pipeline.read line = .ok p) (hp : p.isRunnable = true) :
    KeepsTo limit line s := by
  let start := s.noted [pipelineRecord p]
  have hstages : lineStages line s = Handlers.stageRuns Command.ofVerb none p.stages start :=
    Handlers.lineStages_runnable hread hp s
  have hexec : (Handlers.exec Command.ofVerb line).outcome s = _ :=
    Handlers.outcome_exec_runnable hread hp s
  have hkeep : ∀ run ∈ lineStages line s, run.KeepsTo limit := by
    rw [hstages]
    exact keepsTo_stageRuns hlimit hs (by simp)
  -- The answer of the pipeline is that of its last stage.
  rw [Handlers.fst_runStages, ← hstages] at hexec
  refine ⟨hkeep, fun front run back h t ht hlong => ?_, fun r hr => ?_⟩
  · have hrun : run.answer = .fail (overLimit limit) := (hkeep run (by simp [h])).cut t ht hlong
    obtain rfl : back = [] := stageRuns_stop (hstages.symm.trans h) (by simp [hrun, Result.fail])
    refine ⟨rfl, _, congrArg Prod.fst hexec, ?_⟩
    rw [h]
    simp only [List.map_append, List.map_cons, List.map_nil, List.getLastD_concat, hrun]
    split <;> rfl
  · obtain rfl := Except.ok.inj ((congrArg Prod.fst hexec).symm.trans hr)
    refine ⟨_, ?_, by rw [described_runnable hread hp]⟩
    obtain hnil | ⟨front, run, h⟩ := List.eq_nil_or_concat (lineStages line s)
    · rw [hnil]
      exact fits_nil hlimit
    · rw [h]
      simpa using (hkeep run (by simp [h])).answered

theorem output_said {line : Text} (h : said line none = .ok r) : r.output = [] := by
  unfold said at h
  split at h
  · obtain rfl := Except.ok.inj h
    rfl
  · cases hread : Pipeline.read line with
    | error f => simp [hread, Except.map] at h
    | ok p =>
        rw [hread] at h
        obtain rfl := Except.ok.inj h
        dsimp only
        split
        · rfl
        · unfold notACommand
          dsimp only
          split <;> rfl

theorem keepsTo_idle (hlimit : 0 ≤ limit) (hfallback : s.shell.fallback = none) {line : Text}
    (hidle : ∀ p, Pipeline.read line = .ok p → p.isRunnable = false) : KeepsTo limit line s := by
  have hstages : lineStages line s = [] := Handlers.lineStages_idle hidle s
  have hexec : (Handlers.exec Command.ofVerb line).outcome s = _ :=
    Handlers.outcome_exec_idle hidle s
  refine ⟨by simp [hstages], fun front run back h => by simp [hstages] at h, fun r hr => ?_⟩
  have hsaid : said line none = .ok r := by
    rw [← hfallback]
    exact (congrArg Prod.fst hexec).symm.trans hr
  refine ⟨r, ?_, by rw [described_idle hidle, ite_self]⟩
  rw [output_said hsaid]
  exact fits_nil hlimit

theorem keepsTo_exec (hlimit : 0 ≤ limit) (hs : s.shell.maxOutput = some limit)
    (hfallback : s.shell.fallback = none) (line : Text) : KeepsTo limit line s := by
  obtain ⟨p, hread, hp⟩ | hidle := Handlers.runnable_or_idle line
  · exact keepsTo_runnable hlimit hs hread hp
  · exact keepsTo_idle hlimit hfallback hidle

/-! ## Scripts -/

/-- The runs of the lines of a script find the options of the shell. -/
theorem found_of_mem_lineRuns {lines : List Text} {run : LineRun} (h : run ∈ lineRuns lines s) :
    run.line ∈ lines ∧ (∃ cwd, run.found.shell = { s.shell with cwd })
      ∧ run.answer = ((exec run.line).outcome run.found).1 := by
  induction lines generalizing s with
  | nil => simp [lineRuns, Handlers.lineRuns] at h
  | cons line rest ih =>
      obtain ⟨cwd, hshell⟩ := shell_exec line s
      rw [lineRuns, Handlers.lineRuns] at h
      generalize hexec : (exec line).outcome s = out at h hshell
      obtain ⟨answer, t⟩ := out
      rcases List.mem_cons.mp h with rfl | h
      · exact ⟨by simp, ⟨s.shell.cwd, rfl⟩, (congrArg Prod.fst hexec).symm⟩
      · cases answer with
        | error f => cases h
        | ok r =>
            dsimp only at h
            split at h
            · obtain ⟨hmem, ⟨cwd', hfound⟩, hanswer⟩ := ih h
              exact ⟨by simp [hmem], ⟨cwd', by rw [hfound, hshell]⟩, hanswer⟩
            · cases h

/-- In a shell without a fallback a limit holds for every text that a stage gets, and for every
answer of the shell up to the description above it. A stage that puts out more fails its line, and
no stage runs behind it. -/
theorem outputs_limited (hlimit : 0 ≤ limit) (hs : s.shell.maxOutput = some limit)
    (hfallback : s.shell.fallback = none) :
    (∀ line, KeepsTo limit line s)
      ∧ ∀ script,
        (∀ run ∈ lineRuns (Text.scriptLines script) s, KeepsTo limit run.line run.found)
          ∧ ∀ r, ((execScript script).outcome s).1 = .ok r →
            r = .ok [] ∨ ∃ line ∈ Text.scriptLines script, ∃ plain : Result, plain.output.Fits limit
              ∧ r = if s.shell.debug then described line plain else plain := by
  refine ⟨keepsTo_exec hlimit hs hfallback, fun script => ?_⟩
  have hruns : ∀ run ∈ lineRuns (Text.scriptLines script) s, KeepsTo limit run.line run.found := by
    intro run hrun
    obtain ⟨-, ⟨cwd, hshell⟩, -⟩ := found_of_mem_lineRuns hrun
    exact keepsTo_exec hlimit (by rw [hshell]; exact hs) (by rw [hshell]; exact hfallback) run.line
  refine ⟨hruns, fun r hr => ?_⟩
  have hlast : ((lineRuns (Text.scriptLines script) s).map LineRun.answer).getLastD (.ok (.ok []))
      = .ok r := (Handlers.fst_execLines _ _ _).symm.trans hr
  obtain hnil | ⟨front, run, h⟩ := List.eq_nil_or_concat (lineRuns (Text.scriptLines script) s)
  · rw [hnil] at hlast
    exact .inl (Except.ok.inj hlast).symm
  · have hmem : run ∈ lineRuns (Text.scriptLines script) s := by simp [h]
    obtain ⟨hline, ⟨cwd, hshell⟩, hanswer⟩ := found_of_mem_lineRuns hmem
    have hrun : run.answer = .ok r := by
      rw [h] at hlast
      simpa using hlast
    obtain ⟨plain, hfits, hplain⟩ := (hruns run hmem).answered r (hanswer.symm.trans hrun)
    rw [hshell] at hplain
    exact .inr ⟨run.line, hline, plain, hfits, hplain⟩

/-- A shell that shows descriptions, with a limit of two bytes. -/
def narrow (cwd : Text) : ShellState where
  shell := { cwd, maxOutput := some 2, debug := true }
  world := { backing := .memory ⟨Folder.empty, 100⟩ }

/-- An output of three bytes reaches no further stage. -/
theorem outputs_limited_piped :
    KeepsTo 2 "pwd | wc" (narrow "ab")
      ∧ ((exec "pwd | wc").outcome (narrow "ab")).1
        = .ok { output := "[pwd() | wc()]", error := some (overLimit 2) }
      ∧ (lineStages "pwd | wc" (narrow "ab")).length = 1 :=
  ⟨(outputs_limited (by decide) rfl rfl).1 _, rfl, rfl⟩

/-- A description makes an answer longer than the limit, and it still succeeds. -/
theorem description_over_limit :
    ¬∀ (limit : Int) (s : ShellState), 0 ≤ limit → s.shell.maxOutput = some limit →
      s.shell.fallback = none → ∀ line r, ((exec line).outcome s).1 = .ok r →
        r.output.Fits limit := by
  intro h
  have hfits : Text.Fits "[pwd()]\n/" 2 :=
    h 2 (narrow []) (by decide) rfl rfl "pwd" (.ok "[pwd()]\n/") rfl
  revert hfits
  rw [Text.Fits]
  decide

end Shell

end PipeShell
