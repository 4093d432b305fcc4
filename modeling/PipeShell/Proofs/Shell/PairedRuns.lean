import PipeShell.Proofs.Shell.Pairing

/-!
# Lines side by side

Two shells with tables of commands run the same stages. As long as the commands of the stages end
alike, so do the stages, the pipelines and the lines.
-/

namespace PipeShell.Pairing

open Shell

variable {p : Pairing} {handlers handlers' : Handlers} {stage : Stage} {stages : List Stage}
  {before : Option Text} {line : Text} {s t : ShellState}

/-- How the answers of two runs and the states after them compare. -/
inductive Answered (p : Pairing) (P : Text → Prop) :
    Result × ShellState → Result × ShellState → Prop
  | gave {r s t} : r.error = none → P r.output → p.state.states s t → Answered p P (r, s) (r, t)
  | failed {r r' s t} : r.error ≠ none → r'.error ≠ none → r = r' ∨ p.lax →
      p.state.states s t → Answered p P (r, s) (r', t)
  | excused {f r s out} : p.excused f → r.error = some f.message → Answered p P (r, s) out

/-- The answers of stages are made of what may be shown. -/
abbrev StageAnswered (p : Pairing) : Result × ShellState → Result × ShellState → Prop :=
  p.Answered fun output => output.Within p.shown

/-- What is said to a line, and the states after it. -/
abbrev LineAnswered (p : Pairing) : Result × ShellState → Result × ShellState → Prop :=
  p.Answered fun _ => True

/-- What running lines relies on. -/
structure Steady (p : Pairing) : Prop where
  view {a b} : p.shells a b → a = b
  noted {v w records records'} : p.worlds v w → records = records' ∨ p.lax →
    p.worlds { v with log := v.log ++ records } { w with log := w.log ++ records' }
  expected {f} : p.excused f → f.isExpected

/-- The commands of the stage end alike, if its verb may run. -/
def Handles (p : Pairing) (handlers handlers' : Handlers) (stage : Stage) : Prop :=
  ∀ a, p.shells a a → a.allows stage.verb = true → ∀ piped : Option Text,
    (∀ t ∈ piped, t.Within p.shown) →
    p.state.Pairs (handlers stage.verb stage.args piped) (handlers' stage.verb stage.args piped)
      fun r r' => r = r' ∧ r.output.Within p.shown

variable (hp : p.Steady)
include hp

theorem states_noted {records records' : List LogRecord} (h : p.state.states s t)
    (hr : records = records' ∨ p.lax) : p.state.states (s.noted records) (t.noted records') :=
  ⟨h.1, hp.noted h.2 hr⟩

omit hp in
theorem answered_self {P : Text → Prop} {r : Result} (hr : P r.output) (h : p.state.states s t) :
    p.Answered P (r, s) (r, t) := by
  cases he : r.error with
  | none => exact .gave he hr h
  | some e => exact .failed (by simp [he]) (by simp [he]) (.inl rfl) h

omit hp in
theorem answered_fail (error : Text) (h : p.state.states s t) :
    p.StageAnswered (.fail error, s) (.fail error, t) :=
  answered_self Text.within_nil h

/-- Failures of two commands that may differ, whether they were expected or not. -/
theorem answered_refused (f g : Failure) (message message' : Text) (records records' : List LogRecord)
    (h : p.state.states s t) (hlax : p.lax) :
    p.StageAnswered (if f.isExpected then (.fail f.message, s) else (.fail message, s.noted records))
      (if g.isExpected then (.fail g.message, t) else (.fail message', t.noted records')) := by
  have hnil (s : ShellState) : s.noted [] = s := by simp [ShellState.noted]
  have hall (error error' : Text) (rs rs' : List LogRecord) :
      p.StageAnswered (.fail error, s.noted rs) (.fail error', t.noted rs') :=
    .failed (by simp [Result.fail]) (by simp [Result.fail]) (.inr hlax)
      (states_noted hp h (.inr hlax))
  cases f.isExpected <;> cases g.isExpected
  · exact hall message message' records records'
  · exact hnil t ▸ hall message g.message records []
  · exact hnil s ▸ hall f.message message' [] records'
  · exact hnil s ▸ hnil t ▸ hall f.message g.message [] []

theorem answered_runCommand {piped : Option Text} (h : p.state.states s t)
    (hrun : p.state.Pairs (handlers stage.verb stage.args piped)
      (handlers' stage.verb stage.args piped) fun r r' => r = r' ∧ r.output.Within p.shown) :
    p.StageAnswered (handlers.runCommand stage piped s) (handlers'.runCommand stage piped t) := by
  have hlimit : s.shell.maxOutput = t.shell.maxOutput := by rw [hp.view h.1]
  have hends := hrun s t h
  generalize hout : (handlers stage.verb stage.args piped).outcome s = out at hends
  generalize hout' : (handlers' stage.verb stage.args piped).outcome t = out' at hends
  cases hends with
  | gave hv hs =>
      obtain ⟨rfl, hshown⟩ := hv
      rw [Handlers.runCommand_ok hout, Handlers.runCommand_ok hout', ← hlimit]
      refine answered_self ?_ hs
      unfold limitOutput
      split
      · exact hshown
      · split
        · exact hshown
        · exact Text.within_nil
  | failed hf hs =>
      rename_i f g s' t'
      rw [Handlers.runCommand_error hout, Handlers.runCommand_error hout']
      rcases hf with rfl | hlax
      · split
        · exact answered_fail _ hs
        · exact answered_fail _ (states_noted hp hs (.inl rfl))
      · exact answered_refused hp f g _ _ _ _ hs hlax
  | excused hf =>
      rw [Handlers.runCommand_error hout, if_pos (hp.expected hf)]
      exact .excused hf rfl

theorem answered_runStage (h : p.state.states s t) (hbefore : ∀ u ∈ before, u.Within p.shown)
    (hstage : p.Handles handlers handlers' stage) :
    p.StageAnswered (handlers.runStage stage before s) (handlers'.runStage stage before t) := by
  obtain ⟨record, hrun⟩ := Handlers.runStage_eq stage before
  have hshell : s.shell = t.shell := hp.view h.1
  rw [hrun handlers s, hrun handlers' t, ← hshell]
  split
  · exact answered_fail _ h
  · split
    · exact answered_fail _ h
    · rename_i hallowed
      refine answered_runCommand hp (states_noted hp h (.inl rfl)) ?_
      refine hstage s.shell ?_ (by simpa using hallowed) _ ?_
      · have hself := h.1
        rwa [← hshell] at hself
      · split
        · exact hbefore
        · simp

theorem answered_runStages (index : Nat) {last : Result} (hlast : last.output.Within p.shown)
    (h : p.state.states s t) (hbefore : ∀ u ∈ before, u.Within p.shown)
    (hstages : ∀ stage ∈ stages, p.Handles handlers handlers' stage) :
    p.StageAnswered (handlers.runStages index before last stages s)
      (handlers'.runStages index before last stages t) := by
  induction stages generalizing index before last s t with
  | nil => exact answered_self hlast h
  | cons stage rest ih =>
      have hran := answered_runStage hp h hbefore (hstages stage (by simp))
      generalize hrun : handlers.runStage stage before s = out at hran
      generalize hrun' : handlers'.runStage stage before t = out' at hran
      cases hran with
      | gave he hshown hs =>
          rw [Handlers.runStages_passed hrun he, Handlers.runStages_passed hrun' he]
          exact ih (index + 1) hshown hs (by simpa using hshown) fun stage hmem =>
            hstages stage (by simp [hmem])
      | failed he he' hr hs =>
          obtain ⟨error, he⟩ := Option.ne_none_iff_exists'.mp he
          obtain ⟨error', he'⟩ := Option.ne_none_iff_exists'.mp he'
          rw [Handlers.runStages_failed hrun he, Handlers.runStages_failed hrun' he']
          refine .failed (by simp [he]) (by simp [he']) hr (states_noted hp hs ?_)
          rcases hr with rfl | hlax
          · rw [he, Option.some.injEq] at he'
            exact .inl (by rw [he'])
          · exact .inr hlax
      | excused hf he =>
          rw [Handlers.runStages_failed hrun he]
          exact .excused hf he

theorem answered_execute {pipeline : Pipeline} (h : p.state.states s t)
    (hstages : pipeline.error = none → ∀ stage ∈ pipeline.stages,
      p.Handles handlers handlers' stage) :
    p.StageAnswered (handlers.execute pipeline s) (handlers'.execute pipeline t) := by
  cases he : pipeline.error with
  | some error =>
      simp only [Handlers.execute, he]
      exact answered_fail error h
  | none =>
      simp only [Handlers.execute, he]
      exact answered_runStages hp 0 Text.within_nil h (by simp) (hstages he)

/-! ## Lines -/

omit hp in
/-- A description above an answer tells nothing new about the run. -/
theorem StageAnswered.described {x y : Result × ShellState} (h : p.StageAnswered x y) (debug : Bool)
    (pipeline : Pipeline) :
    p.LineAnswered (if debug then describeAbove pipeline x.1 else x.1, x.2)
      (if debug then describeAbove pipeline y.1 else y.1, y.2) := by
  cases debug with
  | false =>
      cases h with
      | gave he _ hs => exact .gave he trivial hs
      | failed he he' hr hs => exact .failed he he' hr hs
      | excused hf he => exact .excused hf he
  | true =>
      cases h with
      | gave he _ hs => exact .gave he trivial hs
      | failed he he' hr hs => exact .failed he he' (hr.imp_left fun h => by rw [h]) hs
      | excused hf he => exact .excused hf he

/-- Two calls are answered alike: neither can be read, or both succeed with one output, or both
fail. -/
inductive SameAnswer (p : Pairing) : Except Failure Result → Except Failure Result → Prop
  | unread {f} : SameAnswer p (.error f) (.error f)
  | gave {r} : r.error = none → SameAnswer p (.ok r) (.ok r)
  | failed {r r'} : r.error ≠ none → r'.error ≠ none → r = r' ∨ p.lax →
      SameAnswer p (.ok r) (.ok r')

/-- How two calls and the states after them compare. Only calls that run stages are excused. -/
inductive Agreed (p : Pairing) (runs : Prop) :
    Except Failure Result × ShellState → Except Failure Result × ShellState → Prop
  | same {x y s t} : p.SameAnswer x y → p.state.states s t → Agreed p runs (x, s) (y, t)
  | excused {f r s out} : runs → p.excused f → r.error = some f.message →
      Agreed p runs (.ok r, s) out

omit hp in
theorem Agreed.mono {runs runs' : Prop} {x y : Except Failure Result × ShellState}
    (h : p.Agreed runs x y) (hruns : runs → runs') : p.Agreed runs' x y := by
  cases h with
  | same hanswer hs => exact .same hanswer hs
  | excused hr hf he => exact .excused (hruns hr) hf he

omit hp in
theorem agreed_self {runs : Prop} (r : Result) (h : p.state.states s t) :
    p.Agreed runs (.ok r, s) (.ok r, t) := by
  cases he : r.error with
  | none => exact .same (.gave he) h
  | some e => exact .same (.failed (by simp [he]) (by simp [he]) (.inl rfl)) h

omit hp in
theorem Answered.agreed {P : Text → Prop} {runs : Prop} {x y : Result × ShellState}
    (h : p.Answered P x y) (hruns : runs) :
    p.Agreed runs (.ok x.1, x.2) (.ok y.1, y.2) := by
  cases h with
  | gave he _ hs => exact .same (.gave he) hs
  | failed he he' hr hs => exact .same (.failed he he' hr) hs
  | excused hf he => exact .excused hruns hf he

theorem agreed_execute {pipeline : Pipeline} (h : p.state.states s t)
    (hstages : pipeline.error = none → ∀ stage ∈ pipeline.stages,
      p.Handles handlers handlers' stage) :
    p.Agreed (pipeline.error = none)
      (.ok (handlers.execute pipeline s).1, (handlers.execute pipeline s).2)
      (.ok (handlers'.execute pipeline t).1, (handlers'.execute pipeline t).2) := by
  cases he : pipeline.error with
  | some error =>
      simp only [Handlers.execute, he]
      exact agreed_self (.fail error) h
  | none => exact (answered_execute hp h hstages).agreed rfl

theorem agreed_execPipeline {pipeline : Pipeline} (h : p.state.states s t)
    (hstages : pipeline.isPipeline = true → pipeline.error = none →
      ∀ stage ∈ pipeline.stages, p.Handles handlers handlers' stage) :
    p.Agreed (pipeline.isPipeline = true ∧ pipeline.error = none)
      (.ok (handlers.execPipeline line pipeline s).1, (handlers.execPipeline line pipeline s).2)
      (.ok (handlers'.execPipeline line pipeline t).1, (handlers'.execPipeline line pipeline t).2) := by
  have hshell : s.shell = t.shell := hp.view h.1
  cases hpipe : pipeline.isPipeline with
  | false =>
      rw [Handlers.execPipeline_eq, Handlers.execPipeline_eq, ← hshell, hpipe]
      cases s.shell.fallback <;> exact agreed_self _ h
  | true =>
      cases he : pipeline.error with
      | some error =>
          rw [Handlers.execPipeline_eq, Handlers.execPipeline_eq, hpipe, he]
          exact agreed_self _ h
      | none =>
          rw [Handlers.execPipeline_run _ line hpipe he, Handlers.execPipeline_run _ line hpipe he,
            ← hshell]
          refine Answered.agreed (StageAnswered.described ?_ _ _) ⟨rfl, rfl⟩
          exact answered_execute hp (states_noted hp h (.inl rfl)) (hstages hpipe)

theorem agreed_exec (h : p.state.states s t)
    (hline : ∀ stages, RunsStages line stages → ∀ stage ∈ stages,
      p.Handles handlers handlers' stage) :
    p.Agreed (∃ stages, RunsStages line stages) ((handlers.exec line).outcome s)
      ((handlers'.exec line).outcome t) := by
  rw [Handlers.outcome_exec, Handlers.outcome_exec]
  by_cases hb : Text.strip line = []
  · rw [if_pos hb, if_pos hb]
    exact .same (.gave rfl) h
  · rw [if_neg hb, if_neg hb]
    cases hread : Pipeline.read line with
    | error f => exact .same .unread h
    | ok pipeline =>
        have hruns (hpipe : pipeline.isPipeline = true) (he : pipeline.error = none) :
            RunsStages line pipeline.stages := ⟨hb, pipeline, hread, hpipe, he, rfl⟩
        refine (agreed_execPipeline hp h fun hpipe he => hline _ (hruns hpipe he)).mono ?_
        exact fun ⟨hpipe, he⟩ => ⟨_, hruns hpipe he⟩

end PipeShell.Pairing
