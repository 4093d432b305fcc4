import PipeShell.Proofs.Shell.Sequence

/-!
# Answers to stages given by their tokens

What a shell answers to a row of stages, each a verb with the tokens behind it. The answer of a
stage depends on the text that its command reads, and not on the log.
-/

namespace PipeShell

open PipeShell.Action

/-- The verb may run in the shell. -/
def Shell.CanRun (s : Shell) (v : Verb) : Prop :=
  s.commands.contains v = true ∧ s.allows v = true

/-- What a shell answers in the place of a verb that may not run. -/
def Shell.refusal (s : Shell) (v : Verb) : Text :=
  if s.commands.contains v then "Command '" ++ v.word ++ "' is disabled in this shell"
  else "Unknown command: " ++ v.word

/-- What a stage answers when its command ends so, without a limit on outputs. -/
def Result.ofAttempt (v : Verb) : Except Failure Result → Result
  | .ok r => r
  | .error f => .fail (if f.isExpected then f.message else v.word ++ " failed: " ++ f.message)

/-- The stage of a verb with the arguments that tokens give. -/
def Stage.ofTokens (v : Verb) (tokens : List Text) : Except Failure Stage :=
  (Args.parse v tokens).map fun args => ⟨v, args⟩

theorem Stage.ofTokens_eq {v : Verb} {tokens : List Text} {args : Args}
    (h : Args.parse v tokens = .ok args) : ofTokens v tokens = .ok ⟨v, args⟩ := by
  rw [ofTokens, h]
  rfl

/-! ## The input of a command -/

/-- What reading the file at the user's path gives. -/
def ShellState.readAt (s : ShellState) (path : Text) : Except Failure Text :=
  ((Store.read (s.shell.resolve (some path))).outcome s.world).1

/-- What a command reads: the piped text, or the text of the named files, if any are named. -/
def ShellState.inputText (s : ShellState) (args : Args) (piped : Option Text) :
    Except Failure (Option Text) :=
  match piped with
  | some t => .ok (some t)
  | none =>
      if args.sourcePaths = [] then .ok none
      else (args.sourcePaths.mapM s.readAt).map fun ts => some (Command.concat ts)

@[simp] theorem ShellState.readAt_noted (s : ShellState) (records : List LogRecord) (path : Text) :
    (s.noted records).readAt path = s.readAt path :=
  Store.outcome_read_logged _ _ _

@[simp] theorem ShellState.inputText_noted (s : ShellState) (records : List LogRecord) (args : Args)
    (piped : Option Text) : (s.noted records).inputText args piped = s.inputText args piped := by
  have hread : (s.noted records).readAt = s.readAt := funext (s.readAt_noted records)
  unfold inputText
  rw [hread]

theorem ShellState.inputText_one {args : Args} {path : Text} (h : args.sourcePaths = [path])
    (s : ShellState) : s.inputText args none = (s.readAt path).map some := by
  simp only [inputText, h, List.cons_ne_nil, if_false, List.mapM_cons, List.mapM_nil]
  cases s.readAt path <;> rfl

namespace Command

theorem outcome_read_resolved (path : Text) (s : ShellState) :
    (resolve (some path) >>= fun place => liftM (Store.read place) :
        Action ShellState Text).outcome s = (s.readAt path, s) := by
  simp only [outcome_bind, outcome_resolve, outcome_liftM_world, Store.outcome_read_snd]
  rfl

theorem outcome_readAll (paths : List Text) (s : ShellState) :
    (readAll paths).outcome s = (paths.mapM s.readAt, s) := by
  induction paths with
  | nil => rfl
  | cons path rest ih =>
      rw [readAll, ← bind_assoc, outcome_bind, outcome_read_resolved, List.mapM_cons]
      cases s.readAt path with
      | error f => rfl
      | ok content =>
          simp only [outcome_bind, ih, Attempt.ok_bind]
          cases rest.mapM s.readAt <;> rfl

theorem outcome_input (args : Args) (piped : Option Text) (s : ShellState) :
    (input args piped).outcome s = (s.inputText args piped, s) := by
  unfold input ShellState.inputText
  cases piped with
  | some t => rfl
  | none =>
      cases args.sourcePaths with
      | nil => rfl
      | cons path rest =>
          simp only [outcome_bind, outcome_readAll, List.cons_ne_nil, if_false]
          cases (path :: rest).mapM s.readAt <;> rfl

theorem outcome_withInput (args : Args) (piped : Option Text) (form : Text) (run : Text → Command)
    (s : ShellState) :
    (withInput args piped form run).outcome s
      = match s.inputText args piped with
        | .ok none => (.ok (usage form), s)
        | .ok (some content) => (run content).outcome s
        | .error f => (.error f, s) := by
  rw [withInput, outcome_bind, outcome_input]
  cases s.inputText args piped with
  | error f => rfl
  | ok content => cases content <;> rfl

end Command

/-! ## Stages -/

namespace Handlers

open Shell (limitOutput pipe)

variable {handlers : Handlers} {s : ShellState} {v : Verb} {args : Args}

/-- A stage answers as its command ends, where that does not depend on the log. -/
theorem fst_runStage (hrun : s.shell.CanRun v) (hlimit : s.shell.maxOutput = none)
    {before : Option Text} {tried : Except Failure Result}
    (h : ∀ records, ((handlers v args (if v.isPipeAware then before else none)).outcome
      (s.noted records)).1 = tried) :
    (handlers.runStage ⟨v, args⟩ before s).1 = .ofAttempt v tried := by
  obtain ⟨record, hstage⟩ := runStage_eq ⟨v, args⟩ before
  rw [hstage, if_neg (by simpa using hrun.1), if_neg (by simpa using hrun.2), fst_runCommand, h]
  cases tried with
  | ok r => exact congrArg (limitOutput · r) hlimit
  | error f => rfl

theorem fst_runStage_refused (hrun : ¬s.shell.CanRun v) (args : Args) (before : Option Text) :
    (handlers.runStage ⟨v, args⟩ before s).1 = .fail (s.shell.refusal v) := by
  obtain ⟨record, hstage⟩ := runStage_eq ⟨v, args⟩ before
  rw [hstage, Shell.refusal]
  by_cases hknown : s.shell.commands.contains v = true
  · have hallowed : ¬s.shell.allows v = true := fun h => hrun ⟨hknown, h⟩
    rw [if_neg (by simpa using hknown), if_pos (by simpa using hallowed), if_pos hknown]
  · rw [if_pos (by simpa using hknown), if_neg hknown]

/-- A stage and another one on its output, if it succeeds. -/
theorem fst_runStages_pair (first second : Stage) (index : Nat) (before : Option Text)
    (last : Result) (s : ShellState) :
    (handlers.runStages index before last [first, second] s).1
      = if (handlers.runStage first before s).1.error = none then
          (handlers.runStage second (some (handlers.runStage first before s).1.output)
            (handlers.runStage first before s).2).1
        else (handlers.runStage first before s).1 := by
  generalize hrun : handlers.runStage first before s = out
  obtain ⟨r, t⟩ := out
  cases he : r.error with
  | none => rw [runStages_passed hrun he, fst_runStages_single, if_pos rfl]
  | some error => rw [runStages_failed hrun he, if_neg nofun]

/-- What the shell answers to a pipeline whose stages are given by their tokens. -/
def answer (handlers : Handlers) (s : ShellState) (rows : List (Verb × List Text)) :
    Except Failure Result :=
  (rows.mapM fun row => Stage.ofTokens row.1 row.2).map fun stages =>
    (handlers.execute (pipe stages) s).1

theorem answer_eq {rows : List (Verb × List Text)} {stages : List Stage}
    (h : List.Forall₂ (fun row stage => Stage.ofTokens row.1 row.2 = .ok stage) rows stages)
    (s : ShellState) :
    handlers.answer s rows = .ok (handlers.runStages 0 none (.ok []) stages s).1 := by
  have hread : (rows.mapM fun row => Stage.ofTokens row.1 row.2) = .ok stages := by
    induction h with
    | nil => rfl
    | cons hrow _ ih => rw [List.mapM_cons, hrow, Attempt.ok_bind, ih]; rfl
  rw [answer, hread]
  rfl

end Handlers

namespace Shell

open Command

variable {s : ShellState} {v : Verb}

/-- A stage changes nothing of a shell but its working directory. -/
theorem shell_runStage (stage : Stage) (before : Option Text) (s : ShellState) :
    ∃ cwd, (runStage stage before s).2.shell = { s.shell with cwd } := by
  obtain ⟨cwd, hshell⟩ := shell_runStages 0 before (.ok []) [stage] s
  refine ⟨cwd, hshell.symm.trans ?_ |>.symm⟩
  generalize hrun : runStage stage before s = out
  obtain ⟨r, t⟩ := out
  cases he : r.error with
  | none => rw [runStages, Handlers.runStages_passed hrun he]; rfl
  | some error => rw [runStages, Handlers.runStages_failed hrun he]; rfl

theorem canRun_runStage (hrun : s.shell.CanRun v) (stage : Stage) (before : Option Text) :
    (runStage stage before s).2.shell.CanRun v := by
  obtain ⟨cwd, hshell⟩ := shell_runStage stage before s
  rw [hshell]
  exact hrun

theorem maxOutput_runStage (stage : Stage) (before : Option Text) (s : ShellState) :
    (runStage stage before s).2.shell.maxOutput = s.shell.maxOutput := by
  obtain ⟨cwd, hshell⟩ := shell_runStage stage before s
  rw [hshell]

theorem fst_runStages_pair (first second : Stage) (index : Nat) (before : Option Text)
    (last : Result) (s : ShellState) :
    (runStages index before last [first, second] s).1
      = if (runStage first before s).1.error = none then
          (runStage second (some (runStage first before s).1.output)
            (runStage first before s).2).1
        else (runStage first before s).1 :=
  Handlers.fst_runStages_pair first second index before last s

/-- What the shell answers to a pipeline whose stages are given by their tokens. -/
abbrev answer : ShellState → List (Verb × List Text) → Except Failure Result :=
  Handlers.answer ofVerb

theorem answer_eq {rows : List (Verb × List Text)} {stages : List Stage}
    (h : List.Forall₂ (fun row stage => Stage.ofTokens row.1 row.2 = .ok stage) rows stages)
    (s : ShellState) : answer s rows = .ok (runStages 0 none (.ok []) stages s).1 :=
  Handlers.answer_eq h s

end Shell

end PipeShell
