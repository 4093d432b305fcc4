import PipeShell.Proofs.Shell.Trace

/-!
# Descriptions above answers

A shell that puts the description of a pipeline above its answer runs like one that does not: no
command sees the option, and no stage reads a description.
-/

namespace PipeShell

open Shell (describeAbove)

/-- The state with descriptions shown or not. -/
def ShellState.debugging (s : ShellState) (shows : Bool) : ShellState :=
  { s with shell := { s.shell with debug := shows } }

/-- The run of a stage in a shell that shows descriptions or not. -/
def StageRun.debugging (run : StageRun) (shows : Bool) : StageRun :=
  { run with found := run.found.debugging shows }

/-- The answer to a line in a shell that shows descriptions: the pipeline stands in brackets above
the output, if it can run. -/
def Shell.described (line : Text) (r : Result) : Result :=
  match Pipeline.read line with
  | .ok p =>
      if p.isRunnable then
        { r with
          output := '[' :: p.describe ++ ']' :: (if r.output = [] then [] else '\n' :: r.output) }
      else r
  | .error _ => r

/-- The run of a line in a shell that shows descriptions. -/
def LineRun.described (run : LineRun) : LineRun where
  line := run.line
  found := run.found.debugging true
  answer := run.answer.map (Shell.described run.line)

/-! ## Commands -/

namespace Pairing

/-- A shell next to the same one with descriptions shown or not. -/
def toggled (shows : Bool) (picker : Option Picker) : Pairing :=
  { twice (fun _ => True) none picker with
    shells := fun a b => b = { a with debug := shows } ∧ a.picker = picker }

variable {shows : Bool} {picker : Option Picker}

theorem changing_toggled : (toggled shows picker).Changing :=
  have hc : (twice (fun _ => True) none picker).Changing := changing_twice
  { hc with
    view := by
      rintro a _ ⟨rfl, -⟩
      rfl
    picker := And.right
    cwd := fun _ => within_any
    enter := by
      rintro a _ cwd ⟨rfl, hpicker⟩ -
      exact ⟨rfl, hpicker⟩
    path_resolve := fun _ _ => trivial
    path_picked := fun _ _ => trivial
    list := fun h => (hc.list h).mono fun _ _ hv => ⟨hv.length, hv.children, hv.shown⟩
    pick := by
      rintro v _ picker names - ⟨rfl, -⟩ - -
      exact Tie.sameAttempts_self fun _ _ _ _ => ⟨trivial, within_any⟩ }

theorem admits_toggled (stage : Stage) : (toggled shows picker).Admits stage :=
  have hstage : (twice (fun _ => True) none picker).Admits stage := admits_twice stage
  ⟨hstage.values, fun _ _ _ _ => trivial⟩

end Pairing

namespace Command

/-- Commands do not see whether descriptions are shown. -/
theorem outcome_ofVerb_debugging (v : Verb) (args : Args) (piped : Option Text) (s : ShellState)
    (shows : Bool) :
    (ofVerb v args piped).outcome (s.debugging shows)
      = (((ofVerb v args piped).outcome s).1,
        ((ofVerb v args piped).outcome s).2.debugging shows) := by
  have hinfo : (Pairing.twice (fun _ => True) none s.shell.picker).world.Alike Store.storageInfo
      fun _ => True := Pairing.alike_twice (fun _ => trivial) fun _ _ => trivial
  have hanswers : (Pairing.toggled shows s.shell.picker).Answers (ofVerb v args piped) :=
    Pairing.answers_ofVerb Pairing.changing_toggled (Pairing.admits_toggled ⟨v, args⟩)
      (fun _ _ => Pairing.within_any) fun _ => hinfo
  have hends := hanswers s (s.debugging shows) ⟨⟨rfl, rfl⟩, rfl, trivial⟩
  generalize (ofVerb v args piped).outcome s = out at hends ⊢
  generalize (ofVerb v args piped).outcome (s.debugging shows) = out' at hends ⊢
  have hstate {t t' : ShellState} (h : (Pairing.toggled shows s.shell.picker).state.states t t') :
      t' = t.debugging shows := by
    obtain ⟨⟨hshell, -⟩, hworld, -⟩ := h
    obtain ⟨shell, world⟩ := t
    obtain ⟨shell', world'⟩ := t'
    obtain rfl : world = world' := hworld
    obtain rfl : shell' = { shell with debug := shows } := hshell
    rfl
  cases hends with
  | gave hr ht => rw [hstate ht, hr.1]
  | failed hf ht => rw [hstate ht, hf.resolve_right id]
  | excused hf => exact hf.elim

end Command

/-! ## Stages -/

namespace Shell

/-- The run does not see whether descriptions are shown. -/
def Blind (run : Run) : Prop :=
  ∀ s shows, run (s.debugging shows) = ((run s).1, (run s).2.debugging shows)

variable {stage : Stage} {stages : List Stage} {before : Option Text} {line : Text} {p : Pipeline}
  {s : ShellState}

theorem blind_runCommand (stage : Stage) (piped : Option Text) :
    Blind (runCommand stage piped) := by
  intro s shows
  have hcommand := Command.outcome_ofVerb_debugging stage.verb stage.args piped s shows
  generalize hout : (Command.ofVerb stage.verb stage.args piped).outcome s = out at hcommand
  obtain ⟨answer, t⟩ := out
  cases answer with
  | ok r =>
      rw [runCommand, Handlers.runCommand_ok hout, Handlers.runCommand_ok hcommand]
      rfl
  | error f =>
      rw [runCommand, Handlers.runCommand_error hout, Handlers.runCommand_error hcommand]
      cases f.isExpected <;> rfl

theorem blind_runStage (stage : Stage) (before : Option Text) : Blind (runStage stage before) := by
  intro s shows
  rw [runStage, Handlers.runStage_recorded, Handlers.runStage_recorded]
  by_cases hknown : (!s.shell.commands.contains stage.verb) = true
  · rw [if_pos hknown]
    exact if_pos hknown
  · rw [if_neg hknown]
    refine (if_neg hknown).trans ?_
    by_cases hallowed : (!s.shell.allows stage.verb) = true
    · rw [if_pos hallowed]
      exact if_pos hallowed
    · rw [if_neg hallowed]
      refine (if_neg hallowed).trans ?_
      exact blind_runCommand stage _ (s.noted [stageRecord stage before]) shows

theorem blind_runStages (index : Nat) (before : Option Text) (last : Result) (stages : List Stage) :
    Blind (runStages index before last stages) := by
  induction stages generalizing index before last with
  | nil => exact fun _ _ => rfl
  | cons stage rest ih =>
      intro s shows
      have hstage := blind_runStage stage before s shows
      generalize hrun : runStage stage before s = out at hstage
      obtain ⟨r, t⟩ := out
      cases he : r.error with
      | none =>
          rw [runStages, Handlers.runStages_passed hrun he, Handlers.runStages_passed hstage he]
          exact ih (index + 1) (some r.output) r t shows
      | some error =>
          rw [runStages, Handlers.runStages_failed hrun he, Handlers.runStages_failed hstage he]
          rfl

theorem blind_execute (p : Pipeline) : Blind (execute p) := by
  rw [execute, Handlers.execute]
  cases p.error with
  | some error => exact fun _ _ => rfl
  | none => exact blind_runStages 0 none (.ok []) p.stages

/-- The runs of stages are the same, up to the option itself. -/
theorem stageRuns_debugging (before : Option Text) (stages : List Stage) (s : ShellState)
    (shows : Bool) :
    Handlers.stageRuns Command.ofVerb before stages (s.debugging shows)
      = (Handlers.stageRuns Command.ofVerb before stages s).map (·.debugging shows) := by
  induction stages generalizing before s with
  | nil => rfl
  | cons stage rest ih =>
      have hstage := blind_runStage stage before s shows
      generalize hrun : runStage stage before s = out at hstage
      obtain ⟨r, t⟩ := out
      by_cases he : r.error = none
      · rw [Handlers.stageRuns_passed hrun he, Handlers.stageRuns_passed hstage he, ih]
        rfl
      · rw [Handlers.stageRuns_failed hrun he, Handlers.stageRuns_failed hstage he]
        rfl

theorem lineStages_debugging (line : Text) (s : ShellState) (shows : Bool) :
    lineStages line (s.debugging shows) = (lineStages line s).map (·.debugging shows) := by
  rw [lineStages, Handlers.lineStages, Handlers.lineStages]
  cases Pipeline.read line with
  | error f => rfl
  | ok p =>
      dsimp only
      split
      · exact stageRuns_debugging none p.stages (s.noted [pipelineRecord p]) shows
      · rfl

/-! ## Lines -/

theorem described_runnable (h : Pipeline.read line = .ok p) (hp : p.isRunnable = true)
    (r : Result) : described line r = describeAbove p r := by
  rw [described, h]
  dsimp only
  rw [if_pos hp, describeAbove]
  by_cases hr : r.output = []
  · simp [hr]
  · simp [hr]

theorem described_idle (h : ∀ p, Pipeline.read line = .ok p → p.isRunnable = false) (r : Result) :
    described line r = r := by
  rw [described]
  cases hread : Pipeline.read line with
  | error f => rfl
  | ok p => simp [h p hread]

theorem error_described (line : Text) (r : Result) : (described line r).error = r.error := by
  unfold described
  split
  · split <;> rfl
  · rfl

theorem succeeded_described (line : Text) (r : Result) :
    (described line r).succeeded = r.succeeded := by
  rw [Result.succeeded, error_described, Result.succeeded]

/-- A line leaves the state that it leaves without descriptions, and is answered with the
description above the same answer. -/
theorem outcome_exec_debugging (hs : s.shell.debug = false) (line : Text) :
    (exec line).outcome (s.debugging true)
      = (((exec line).outcome s).1.map (described line),
        ((exec line).outcome s).2.debugging true) := by
  obtain ⟨p, hread, hp⟩ | hidle := Handlers.runnable_or_idle line
  · have hstages := blind_runStages 0 none (.ok []) p.stages (s.noted [pipelineRecord p]) true
    have hshows : (s.debugging true).shell.debug = true := rfl
    have hnoted : (s.debugging true).noted [pipelineRecord p]
      = (s.noted [pipelineRecord p]).debugging true := rfl
    rw [runStages] at hstages
    rw [exec, Handlers.outcome_exec_runnable hread hp, Handlers.outcome_exec_runnable hread hp,
      hshows, hs, hnoted, hstages]
    simp [Except.map, described_runnable hread hp]
  · rw [exec, Handlers.outcome_exec_idle hidle, Handlers.outcome_exec_idle hidle]
    change (said line s.shell.fallback, s.debugging true) = _
    cases said line s.shell.fallback with
    | error f => rfl
    | ok r => simp [Except.map, described_idle hidle]

theorem debug_of_kept {t : ShellState} (h : ∃ cwd, t.shell = { s.shell with cwd }) :
    t.shell.debug = s.shell.debug := by
  obtain ⟨cwd, hshell⟩ := h
  rw [hshell]

theorem lineRuns_debugging (hs : s.shell.debug = false) (lines : List Text) :
    lineRuns lines (s.debugging true) = (lineRuns lines s).map LineRun.described := by
  induction lines generalizing s with
  | nil => rfl
  | cons line rest ih =>
      have hkept := debug_of_kept (shell_exec line s)
      rw [lineRuns, Handlers.lineRuns, Handlers.lineRuns, outcome_exec_debugging hs]
      generalize (exec line).outcome s = out at hkept
      obtain ⟨answer, t⟩ := out
      cases answer with
      | error f => rfl
      | ok r =>
          dsimp only [Except.map]
          rw [succeeded_described]
          by_cases hr : r.succeeded = true
          · rw [if_pos hr, if_pos hr, List.map_cons, ← ih (hkept.trans hs)]
            rfl
          · rw [if_neg hr, if_neg hr]
            rfl

/-! ## Calls -/

/-- The outcome in a shell that shows descriptions next to the one without: the same failure or
error, and the same state. -/
def Matches (shown plain : Except Failure Result × ShellState) : Prop :=
  shown.1.map Result.error = plain.1.map Result.error ∧ shown.2 = plain.2.debugging true

theorem matches_execLines (hs : s.shell.debug = false) {last last' : Result}
    (hlast : last'.error = last.error) (lines : List Text) :
    Matches ((execLines last' lines).outcome (s.debugging true))
      ((execLines last lines).outcome s) := by
  induction lines generalizing last last' s with
  | nil => exact ⟨congrArg Except.ok hlast, rfl⟩
  | cons line rest ih =>
      have hkept := debug_of_kept (shell_exec line s)
      rw [execLines, Handlers.outcome_execLines_cons, Handlers.outcome_execLines_cons,
        outcome_exec_debugging hs]
      generalize (exec line).outcome s = out at hkept
      obtain ⟨answer, t⟩ := out
      cases answer with
      | error f => exact ⟨rfl, rfl⟩
      | ok r =>
          dsimp only [Except.map]
          rw [succeeded_described]
          by_cases hr : r.succeeded = true
          · rw [if_pos hr, if_pos hr]
            exact ih (hkept.trans hs) (error_described line r)
          · rw [if_neg hr, if_neg hr]
            exact ⟨congrArg Except.ok (error_described line r), rfl⟩

theorem matches_call (hs : s.shell.debug = false) (call : ShellCall) :
    Matches ((Handlers.call Command.ofVerb call).outcome (s.debugging true))
      ((Handlers.call Command.ofVerb call).outcome s) := by
  cases call with
  | exec line =>
      rw [Handlers.call, outcome_exec_debugging hs]
      refine ⟨?_, rfl⟩
      cases ((exec line).outcome s).1 with
      | error f => rfl
      | ok r => exact congrArg Except.ok (error_described line r)
  | execScript script => exact matches_execLines hs rfl _
  | execute p =>
      have hrun := blind_execute p s true
      change Matches (.ok (execute p (s.debugging true)).1, (execute p (s.debugging true)).2)
        (.ok (execute p s).1, (execute p s).2)
      rw [hrun]
      exact ⟨rfl, rfl⟩

theorem runCalls_debugging (hs : s.shell.debug = false) (calls : List ShellCall) :
    (runCalls calls (s.debugging true)).1.map (Except.map Result.error)
        = (runCalls calls s).1.map (Except.map Result.error)
      ∧ (runCalls calls (s.debugging true)).2 = (runCalls calls s).2.debugging true
      ∧ (runCalls calls s).2.shell.debug = false := by
  induction calls generalizing s with
  | nil => exact ⟨rfl, rfl, hs⟩
  | cons call rest ih =>
      obtain ⟨herror, hstate⟩ := matches_call hs call
      obtain ⟨herrors, hend, hdebug⟩ := ih ((debug_of_kept (shell_call call s)).trans hs)
      rw [runCalls, Handlers.runCalls_cons, Handlers.runCalls_cons, hstate]
      exact ⟨congrArg₂ List.cons herror herrors, hend, hdebug⟩

/-- Showing descriptions changes no more than what is shown. Calls of a shell with the option and of
one without it fail alike, with the same errors, and leave the same state: the working directory,
the store, the host and the records. A line is answered like without the option, below the
description of its pipeline if that can run, also in a script; and the stages of the line find the
same states, the same piped texts and give the same answers. -/
theorem debug_only_shows (s : ShellState) :
    (∀ calls,
        (runCalls calls (s.debugging true)).1.map (Except.map Result.error)
            = (runCalls calls (s.debugging false)).1.map (Except.map Result.error)
          ∧ (runCalls calls (s.debugging true)).2
            = (runCalls calls (s.debugging false)).2.debugging true
          ∧ (runCalls calls (s.debugging false)).2.shell.debug = false)
      ∧ (∀ line, (exec line).outcome (s.debugging true)
          = (((exec line).outcome (s.debugging false)).1.map (described line),
            ((exec line).outcome (s.debugging false)).2.debugging true))
      ∧ (∀ line, lineStages line (s.debugging true)
          = (lineStages line (s.debugging false)).map (·.debugging true))
      ∧ ∀ script, lineRuns (Text.scriptLines script) (s.debugging true)
            = (lineRuns (Text.scriptLines script) (s.debugging false)).map LineRun.described
          ∧ ((execScript script).outcome s).1
            = ((lineRuns (Text.scriptLines script) s).map LineRun.answer).getLastD
              (.ok (.ok [])) := by
  have hoff : (s.debugging false).shell.debug = false := rfl
  refine ⟨fun calls => runCalls_debugging hoff calls, fun line => outcome_exec_debugging hoff line,
    fun line => lineStages_debugging line (s.debugging false) true, fun script => ⟨?_, ?_⟩⟩
  · exact lineRuns_debugging hoff (Text.scriptLines script)
  · exact Handlers.fst_execLines (.ok []) (Text.scriptLines script) s

example : described "echo hi" (.ok "hi") = .ok "[echo(text='hi')]\nhi" := rfl

end Shell

end PipeShell
