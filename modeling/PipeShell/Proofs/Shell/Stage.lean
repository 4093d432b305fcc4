import PipeShell.Proofs.Store.Action
import PipeShell.Shell.Exec

/-!
# Running stages

How stages and lines run with a table of commands. A stage ends in one of five ways: its verb is
unknown or disabled, its command answers, or a failure of the command becomes its answer.
-/

namespace PipeShell

/-- The state with more records. -/
def ShellState.noted (s : ShellState) (records : List LogRecord) : ShellState :=
  { s with world := { s.world with log := s.world.log ++ records } }

/-- The record of a stage that is allowed to run. -/
def Shell.stageRecord (stage : Stage) (before : Option Text) : LogRecord :=
  let piped := if stage.verb.isPipeAware then before else none
  ⟨.debug, .shell, "stage " ++ stage.verb.word ++ " args=" ++ renderArgs stage.args
    ++ " piped=" ++ (if piped.isSome then "True" else "False")⟩

namespace Action

variable {α : Type}

@[simp] theorem outcome_liftM_world (x : Action World α) (s : ShellState) :
    outcome (liftM x : Action ShellState α) s
      = ((x.outcome s.world).1, { s with world := (x.outcome s.world).2 }) := rfl

@[simp] theorem outcome_resolve (path : Option Text) (s : ShellState) :
    (Command.resolve path).outcome s = (.ok (s.shell.resolve path), s) := rfl

end Action

namespace Handlers

open Shell (Run note limitOutput renderArgs notACommand describeAbove)

variable {handlers : Handlers} {stage : Stage} {piped : Option Text} {s s' : ShellState}

theorem runCommand_ok {r : Result}
    (h : (handlers stage.verb stage.args piped).outcome s = (.ok r, s')) :
    handlers.runCommand stage piped s = (limitOutput s.shell.maxOutput r, s') := by
  have hrun : (handlers stage.verb stage.args piped).run s = (.ok r, s') := h
  simp only [runCommand, bind, StateT.bind, get, getThe, MonadStateOf.get, StateT.get, pure, hrun]
  rfl

theorem runCommand_error {f : Failure}
    (h : (handlers stage.verb stage.args piped).outcome s = (.error f, s')) :
    handlers.runCommand stage piped s
      = if f.isExpected then (.fail f.message, s')
        else (.fail (stage.verb.word ++ " failed: " ++ f.message),
          s'.noted [⟨.warning, .shell, stage.verb.word ++ " failed unexpectedly"⟩]) := by
  have hrun : (handlers stage.verb stage.args piped).run s = (.error f, s') := h
  simp only [runCommand, bind, StateT.bind, get, getThe, MonadStateOf.get, StateT.get, pure, hrun]
  cases f.isExpected <;> rfl

theorem runStage_recorded (handlers : Handlers) (stage : Stage) (before : Option Text)
    (s : ShellState) :
    handlers.runStage stage before s
      = if !s.shell.commands.contains stage.verb then
          (.fail ("Unknown command: " ++ stage.verb.word), s)
        else if !s.shell.allows stage.verb then
          (.fail ("Command '" ++ stage.verb.word ++ "' is disabled in this shell"), s)
        else handlers.runCommand stage (if stage.verb.isPipeAware then before else none)
          (s.noted [Shell.stageRecord stage before]) := by
  have hrun : handlers.runStage stage before s
      = (if !s.shell.commands.contains stage.verb then
          (pure (.fail ("Unknown command: " ++ stage.verb.word)) : Run)
        else if !s.shell.allows stage.verb then
          pure (.fail ("Command '" ++ stage.verb.word ++ "' is disabled in this shell"))
        else do
          note .debug (Shell.stageRecord stage before).message
          handlers.runCommand stage (if stage.verb.isPipeAware then before else none)) s := rfl
  rw [hrun]
  by_cases hk : (!s.shell.commands.contains stage.verb) = true
  · rw [if_pos hk, if_pos hk]
    rfl
  · rw [if_neg hk, if_neg hk]
    by_cases ha : (!s.shell.allows stage.verb) = true
    · rw [if_pos ha, if_pos ha]
      rfl
    · rw [if_neg ha, if_neg ha]
      rfl

theorem runStage_eq (stage : Stage) (before : Option Text) :
    ∃ record, ∀ (handlers : Handlers) (s : ShellState), handlers.runStage stage before s
      = if !s.shell.commands.contains stage.verb then
          (.fail ("Unknown command: " ++ stage.verb.word), s)
        else if !s.shell.allows stage.verb then
          (.fail ("Command '" ++ stage.verb.word ++ "' is disabled in this shell"), s)
        else handlers.runCommand stage (if stage.verb.isPipeAware then before else none)
          (s.noted [record]) :=
  ⟨Shell.stageRecord stage before, fun handlers s => runStage_recorded handlers stage before s⟩

theorem runStages_failed {before : Option Text} {r : Result} {index : Nat} {last : Result}
    {rest : List Stage} {error : Text} (hrun : handlers.runStage stage before s = (r, s'))
    (he : r.error = some error) :
    handlers.runStages index before last (stage :: rest) s
      = (r, s'.noted [⟨.debug, .shell,
          "stage " ++ Text.ofNat index ++ " (" ++ stage.verb.word ++ ") failed: " ++ error⟩]) := by
  simp only [runStages, bind, StateT.bind, hrun, he]
  rfl

theorem runStages_passed {before : Option Text} {r : Result} {index : Nat} {last : Result}
    {rest : List Stage} (hrun : handlers.runStage stage before s = (r, s')) (he : r.error = none) :
    handlers.runStages index before last (stage :: rest) s
      = handlers.runStages (index + 1) (some r.output) r rest s' := by
  simp only [runStages, bind, StateT.bind, hrun, he]

theorem outcome_exec (handlers : Handlers) (line : Text) (s : ShellState) :
    (handlers.exec line).outcome s
      = if Text.strip line = [] then (.ok (.ok []), s)
        else match Pipeline.read line with
          | .error f => (.error f, s)
          | .ok p => (.ok (handlers.execPipeline line p s).1, (handlers.execPipeline line p s).2) := by
  rw [exec, Action.outcome_ite]
  cases Pipeline.read line <;> rfl

theorem execPipeline_eq (handlers : Handlers) (line : Text) (p : Pipeline) (s : ShellState) :
    handlers.execPipeline line p s
      = (if !p.isPipeline then
          match s.shell.fallback with
          | some answer => return answer line
          | none => return notACommand line
        else match p.error with
        | some error => return .fail error
        | none => do
            note .debug ("running " ++ p.describe)
            let r ← handlers.execute p
            return if s.shell.debug then describeAbove p r else r : Run) s := rfl

theorem execPipeline_run (handlers : Handlers) (line : Text) {p : Pipeline}
    (hp : p.isPipeline = true) (he : p.error = none) (s : ShellState) :
    handlers.execPipeline line p s
      = ((if s.shell.debug then describeAbove p (handlers.execute p
            (s.noted [⟨.debug, .shell, "running " ++ p.describe⟩])).1
          else (handlers.execute p (s.noted [⟨.debug, .shell, "running " ++ p.describe⟩])).1),
        (handlers.execute p (s.noted [⟨.debug, .shell, "running " ++ p.describe⟩])).2) := by
  rw [execPipeline_eq, he]
  simp only [hp]
  rfl

end Handlers

namespace Shell

/-- The line runs the stages of a pipeline. -/
def RunsStages (line : Text) (stages : List Stage) : Prop :=
  Text.strip line ≠ []
    ∧ ∃ p, Pipeline.read line = .ok p ∧ p.isPipeline = true ∧ p.error = none ∧ p.stages = stages

/-- How a stage ends. -/
inductive Ran (stage : Stage) (before : Option Text) (s : ShellState) : Result → ShellState → Prop
  | unknown : stage.verb ∉ s.shell.commands →
      Ran stage before s (.fail ("Unknown command: " ++ stage.verb.word)) s
  | disabled : s.shell.allows stage.verb = false →
      Ran stage before s
        (.fail ("Command '" ++ stage.verb.word ++ "' is disabled in this shell")) s
  | answered {records r s'} :
      (Command.ofVerb stage.verb stage.args (if stage.verb.isPipeAware then before else none)).outcome
        (s.noted records) = (.ok r, s') →
      Ran stage before s (limitOutput s.shell.maxOutput r) s'
  | refused {records f s'} :
      (Command.ofVerb stage.verb stage.args (if stage.verb.isPipeAware then before else none)).outcome
        (s.noted records) = (.error f, s') →
      f.isExpected → Ran stage before s (.fail f.message) s'
  | broken {records f s' records'} :
      (Command.ofVerb stage.verb stage.args (if stage.verb.isPipeAware then before else none)).outcome
        (s.noted records) = (.error f, s') →
      ¬f.isExpected →
      Ran stage before s (.fail (stage.verb.word ++ " failed: " ++ f.message)) (s'.noted records')

theorem ran_runStage (stage : Stage) (before : Option Text) (s : ShellState) :
    Ran stage before s (runStage stage before s).1 (runStage stage before s).2 := by
  obtain ⟨record, hrun⟩ := Handlers.runStage_eq stage before
  rw [runStage, hrun]
  by_cases hk : (!s.shell.commands.contains stage.verb) = true
  · rw [if_pos hk]
    exact .unknown (by simpa using hk)
  · rw [if_neg hk]
    by_cases ha : (!s.shell.allows stage.verb) = true
    · rw [if_pos ha]
      exact .disabled (by simpa using ha)
    · rw [if_neg ha]
      generalize hout : (Command.ofVerb stage.verb stage.args
        (if stage.verb.isPipeAware then before else none)).outcome (s.noted [record]) = out
      obtain ⟨r, s'⟩ := out
      cases r with
      | ok r =>
          rw [Handlers.runCommand_ok hout]
          exact .answered hout
      | error f =>
          rw [Handlers.runCommand_error hout]
          by_cases hf : f.isExpected = true
          · simpa [hf] using Ran.refused hout hf
          · simpa [hf] using Ran.broken hout hf

end Shell

end PipeShell
