import PipeShell.Proofs.Shell.Scripts
import PipeShell.Proofs.Shell.Sources
import PipeShell.Proofs.Shell.Unreadable

/-!
# Traces

What the runs of stages and lines find and answer, one after another. A pipeline and a script are
answered like the last of these.
-/

namespace PipeShell

open Shell (notACommand describeAbove)

/-- The run of a stage: the text that is piped into it, the state that it finds, and its answer. -/
structure StageRun where
  stage : Stage
  before : Option Text
  found : ShellState
  answer : Result

/-- The run of a line: the state that it finds, and what the shell answers. -/
structure LineRun where
  line : Text
  found : ShellState
  answer : Except Failure Result

/-- The record of a pipeline that is run. -/
def Shell.pipelineRecord (p : Pipeline) : LogRecord :=
  ⟨.debug, .shell, "running " ++ p.describe⟩

/-- What a shell says to a line that runs nothing. -/
def Shell.said (line : Text) (fallback : Option (Text → Result)) : Except Failure Result :=
  if Text.strip line = [] then .ok (.ok [])
  else (Pipeline.read line).map fun p =>
    if p.isPipeline then .fail (p.error.getD [])
    else match fallback with
      | some answer => answer line
      | none => notACommand line

namespace Handlers

variable (handlers : Handlers)

/-- The runs of stages, up to the first one that fails. -/
def stageRuns (before : Option Text) : List Stage → ShellState → List StageRun
  | [], _ => []
  | stage :: rest, s =>
      let (r, t) := handlers.runStage stage before s
      ⟨stage, before, s, r⟩ :: if r.succeeded then stageRuns (some r.output) rest t else []

/-- The runs of the stages of a line. A line without a pipeline that can run has none. -/
def lineStages (line : Text) (s : ShellState) : List StageRun :=
  match Pipeline.read line with
  | .ok p =>
      if p.isRunnable then handlers.stageRuns none p.stages (s.noted [Shell.pipelineRecord p])
      else []
  | .error _ => []

/-- The runs of lines, up to the first one that does not succeed. -/
def lineRuns : List Text → ShellState → List LineRun
  | [], _ => []
  | line :: rest, s =>
      let (answer, t) := (handlers.exec line).outcome s
      ⟨line, s, answer⟩ :: match answer with
        | .ok r => if r.succeeded then lineRuns rest t else []
        | .error _ => []

variable {handlers} {stage : Stage} {before : Option Text} {line : Text} {p : Pipeline}
  {r last : Result} {s t : ShellState}

/-! ## Stages -/

theorem stageRuns_passed (hrun : handlers.runStage stage before s = (r, t))
    (he : r.error = none) (rest : List Stage) :
    handlers.stageRuns before (stage :: rest) s
      = ⟨stage, before, s, r⟩ :: handlers.stageRuns (some r.output) rest t := by
  have hok : r.succeeded = true := by simp [Result.succeeded, he]
  simp only [stageRuns, hrun, if_pos hok]

theorem stageRuns_failed (hrun : handlers.runStage stage before s = (r, t))
    (he : r.error ≠ none) (rest : List Stage) :
    handlers.stageRuns before (stage :: rest) s = [⟨stage, before, s, r⟩] := by
  have hfailed : ¬r.succeeded = true := by simpa [Result.succeeded] using he
  simp only [stageRuns, hrun, if_neg hfailed]

theorem fst_runStages (index : Nat) (before : Option Text) (last : Result) (stages : List Stage)
    (s : ShellState) :
    (handlers.runStages index before last stages s).1
      = ((handlers.stageRuns before stages s).map StageRun.answer).getLastD last := by
  induction stages generalizing index before last s with
  | nil => rfl
  | cons stage rest ih =>
      generalize hrun : handlers.runStage stage before s = out
      obtain ⟨r, t⟩ := out
      cases he : r.error with
      | none =>
          rw [runStages_passed hrun he, stageRuns_passed hrun he, ih, List.map_cons,
            List.getLastD_cons]
      | some error =>
          rw [runStages_failed hrun he, stageRuns_failed hrun (by simp [he])]
          rfl

/-! ## What a line runs -/

theorem isRunnable_of_read (h : Pipeline.read line = .ok p) (hp : p.isPipeline = true)
    (he : p.error = none) : p.isRunnable = true := by
  obtain ⟨kind, hkind⟩ := Pipeline.exists_kind h
  cases kind with
  | other => simp [hkind.1] at hp
  | refused =>
      obtain ⟨-, ⟨error, herror⟩, -⟩ := hkind
      simp [herror] at he
  | runnable => exact hkind.1

theorem runnable_or_idle (line : Text) :
    (∃ p, Pipeline.read line = .ok p ∧ p.isRunnable = true)
      ∨ ∀ p, Pipeline.read line = .ok p → p.isRunnable = false := by
  by_cases h : ∃ p, Pipeline.read line = .ok p ∧ p.isRunnable = true
  · exact .inl h
  · exact .inr fun p hread => by simpa using fun hp => h ⟨p, hread, hp⟩

theorem lineStages_runnable (h : Pipeline.read line = .ok p) (hp : p.isRunnable = true)
    (s : ShellState) : handlers.lineStages line s
      = handlers.stageRuns none p.stages (s.noted [Shell.pipelineRecord p]) := by
  simp only [lineStages, h, hp, if_true]

theorem lineStages_idle (h : ∀ p, Pipeline.read line = .ok p → p.isRunnable = false)
    (s : ShellState) : handlers.lineStages line s = [] := by
  rw [lineStages]
  cases hread : Pipeline.read line with
  | error f => rfl
  | ok p => simp [h p hread]

theorem outcome_exec_runnable (h : Pipeline.read line = .ok p) (hp : p.isRunnable = true)
    (s : ShellState) :
    (handlers.exec line).outcome s
      = (.ok (if s.shell.debug then describeAbove p
            (handlers.runStages 0 none (.ok []) p.stages (s.noted [Shell.pipelineRecord p])).1
          else (handlers.runStages 0 none (.ok []) p.stages (s.noted [Shell.pipelineRecord p])).1),
        (handlers.runStages 0 none (.ok []) p.stages (s.noted [Shell.pipelineRecord p])).2) := by
  have hopen : Text.strip line ≠ [] := by
    intro hblank
    have hlooks := (Pipeline.reads_of_runnable h hp).1
    rw [Pipeline.looksLikePipeline_of_blank hblank] at hlooks
    cases hlooks
  obtain ⟨⟨hpipe, herror⟩, -⟩ : (p.isPipeline = true ∧ p.error = none) ∧ p.stages ≠ [] := by
    simpa [Pipeline.isRunnable] using hp
  have hexecute : handlers.execute p = handlers.runStages 0 none (.ok []) p.stages := by
    rw [execute, herror]
  rw [outcome_exec, if_neg hopen, h]
  dsimp only
  rw [execPipeline_run handlers line hpipe herror, hexecute]
  rfl

/-- A line without a pipeline that can run changes nothing. -/
theorem outcome_exec_idle (h : ∀ p, Pipeline.read line = .ok p → p.isRunnable = false)
    (s : ShellState) : (handlers.exec line).outcome s = (Shell.said line s.shell.fallback, s) := by
  rw [outcome_exec]
  unfold Shell.said
  split
  · rfl
  · cases hread : Pipeline.read line with
    | error f => rfl
    | ok p =>
        have hidle := h p hread
        have hrunnable := isRunnable_of_read hread
        obtain ⟨stages, isPipeline, error⟩ := p
        dsimp only
        rw [execPipeline_eq]
        cases isPipeline with
        | false => cases s.shell.fallback <;> rfl
        | true =>
            cases error with
            | none => simp [hrunnable rfl rfl] at hidle
            | some error => rfl

/-! ## Lines -/

theorem fst_execLines (last : Result) (lines : List Text) (s : ShellState) :
    ((handlers.execLines last lines).outcome s).1
      = ((handlers.lineRuns lines s).map LineRun.answer).getLastD (.ok last) := by
  induction lines generalizing last s with
  | nil => rfl
  | cons line rest ih =>
      rw [outcome_execLines_cons, lineRuns]
      generalize (handlers.exec line).outcome s = out
      obtain ⟨answer, t⟩ := out
      cases answer with
      | error f => rfl
      | ok r =>
          dsimp only
          by_cases hr : r.succeeded = true
          · rw [if_pos hr, if_pos hr, ih, List.map_cons, List.getLastD_cons]
          · rw [if_neg hr, if_neg hr]
            rfl

end Handlers

namespace Shell

/-- The runs of the stages of a line. -/
abbrev lineStages : Text → ShellState → List StageRun :=
  Handlers.lineStages Command.ofVerb

/-- The runs of lines. -/
abbrev lineRuns : List Text → ShellState → List LineRun :=
  Handlers.lineRuns Command.ofVerb

theorem shell_exec (line : Text) (s : ShellState) :
    ∃ cwd, ((exec line).outcome s).2.shell = { s.shell with cwd } := by
  obtain ⟨p, hread, hp⟩ | hidle := Handlers.runnable_or_idle line
  · rw [exec, Handlers.outcome_exec_runnable hread hp]
    exact shell_runStages 0 none (.ok []) p.stages (s.noted [pipelineRecord p])
  · rw [exec, Handlers.outcome_exec_idle hidle]
    exact ⟨s.shell.cwd, rfl⟩

theorem shell_execLines (last : Result) (lines : List Text) (s : ShellState) :
    ∃ cwd, ((execLines last lines).outcome s).2.shell = { s.shell with cwd } := by
  induction lines generalizing last s with
  | nil => exact ⟨s.shell.cwd, rfl⟩
  | cons line rest ih =>
      obtain ⟨cwd, hline⟩ := shell_exec line s
      rw [execLines, Handlers.outcome_execLines_cons]
      generalize (exec line).outcome s = out at hline
      obtain ⟨answer, t⟩ := out
      cases answer with
      | error f => exact ⟨cwd, hline⟩
      | ok r =>
          dsimp only at hline ⊢
          split
          · obtain ⟨cwd', hrest⟩ := ih r t
            exact ⟨cwd', by rw [hrest, hline]⟩
          · exact ⟨cwd, hline⟩

theorem shell_call (call : ShellCall) (s : ShellState) :
    ∃ cwd, ((Handlers.call Command.ofVerb call).outcome s).2.shell = { s.shell with cwd } := by
  cases call with
  | exec line => exact shell_exec line s
  | execScript script => exact shell_execLines (.ok []) (Text.scriptLines script) s
  | execute p =>
      change ∃ cwd, (execute p s).2.shell = _
      rw [execute, Handlers.execute]
      cases p.error with
      | some error => exact ⟨s.shell.cwd, rfl⟩
      | none => exact shell_runStages 0 none (.ok []) p.stages s

end Shell

end PipeShell
