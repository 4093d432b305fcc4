import Mathlib.Data.List.Forall2
import PipeShell.Proofs.Shell.PairedRuns

/-!
# Calls of a shell

A shell is called with lines, with scripts and with pipelines, one call after another, whether they
succeed or not.
-/

namespace PipeShell

open Shell (RunsStages)

/-- A call of a shell. -/
inductive ShellCall
  | exec (line : Text)
  | execScript (script : Text)
  | execute (pipeline : Pipeline)

/-- The call runs the stage, unless a failure ends it before. -/
def ShellCall.Runs (stage : Stage) : ShellCall → Prop
  | exec line => ∃ stages, RunsStages line stages ∧ stage ∈ stages
  | execScript script =>
      ∃ line ∈ Text.scriptLines script, ∃ stages, RunsStages line stages ∧ stage ∈ stages
  | execute pipeline => pipeline.error = none ∧ stage ∈ pipeline.stages

/-- The call runs stages. -/
def ShellCall.RunsStages : ShellCall → Prop
  | exec line => ∃ stages, Shell.RunsStages line stages
  | execScript script => ∃ line ∈ Text.scriptLines script, ∃ stages, Shell.RunsStages line stages
  | execute pipeline => pipeline.error = none

namespace Handlers

/-- Makes a call. -/
def call (handlers : Handlers) : ShellCall → Command
  | .exec line => handlers.exec line
  | .execScript script => handlers.execScript script
  | .execute pipeline => fun s => (.ok (handlers.execute pipeline s).1, (handlers.execute pipeline s).2)

/-- Makes calls one after another, and gives what each of them answers. -/
def runCalls (handlers : Handlers) :
    List ShellCall → ShellState → List (Except Failure Result) × ShellState
  | [], s => ([], s)
  | call :: rest, s =>
      let (answer, s) := (handlers.call call).run s
      let (answers, s) := handlers.runCalls rest s
      (answer :: answers, s)

theorem runCalls_cons (handlers : Handlers) (call : ShellCall) (rest : List ShellCall)
    (s : ShellState) :
    handlers.runCalls (call :: rest) s
      = (((handlers.call call).outcome s).1
          :: (handlers.runCalls rest ((handlers.call call).outcome s).2).1,
        (handlers.runCalls rest ((handlers.call call).outcome s).2).2) := rfl

end Handlers

/-- Makes calls of a shell one after another. -/
abbrev Shell.runCalls : List ShellCall → ShellState → List (Except Failure Result) × ShellState :=
  Handlers.runCalls Command.ofVerb

namespace Pairing

variable {p : Pairing} {handlers handlers' : Handlers} {s t : ShellState}

theorem agreed_execLines (hp : p.Steady) {lines : List Text} {last : Result}
    (h : p.state.states s t)
    (hlines : ∀ line ∈ lines, ∀ stages, RunsStages line stages → ∀ stage ∈ stages,
      p.Handles handlers handlers' stage) (hlast : last.error = none) :
    p.Agreed (∃ line ∈ lines, ∃ stages, RunsStages line stages)
      ((handlers.execLines last lines).outcome s)
      ((handlers'.execLines last lines).outcome t) := by
  induction lines generalizing last s t with
  | nil => exact .same (.gave hlast) h
  | cons line rest ih =>
      have hexec := agreed_exec hp h (hlines line (by simp))
      rw [Handlers.execLines, Handlers.execLines, Action.outcome_bind, Action.outcome_bind]
      generalize (handlers.exec line).outcome s = out at hexec
      generalize (handlers'.exec line).outcome t = out' at hexec
      have hfailed {r : Result} (he : r.error ≠ none) : ¬r.succeeded = true := by
        simpa [Result.succeeded] using he
      cases hexec with
      | same hanswer hs =>
          cases hanswer with
          | unread => exact .same .unread hs
          | @gave r he =>
              have hok : r.succeeded = true := by simp [Result.succeeded, he]
              simp only [if_pos hok]
              have hrest := ih hs (fun line hmem => hlines line (by simp [hmem])) he
              exact hrest.mono fun ⟨line, hmem, hruns⟩ => ⟨line, by simp [hmem], hruns⟩
          | failed he he' hr =>
              simp only [if_neg (hfailed he), if_neg (hfailed he')]
              exact .same (.failed he he' hr) hs
      | @excused f r s' out hruns hf he =>
          have hr : r.error ≠ none := by simp [he]
          simp only [if_neg (hfailed hr)]
          exact .excused ⟨line, by simp, hruns⟩ hf he

theorem agreed_call (hp : p.Steady) {call : ShellCall} (h : p.state.states s t)
    (hcall : ∀ stage, call.Runs stage → p.Handles handlers handlers' stage) :
    p.Agreed call.RunsStages ((handlers.call call).outcome s) ((handlers'.call call).outcome t) := by
  cases call with
  | exec line =>
      exact agreed_exec hp h fun stages hruns stage hmem => hcall stage ⟨stages, hruns, hmem⟩
  | execScript script =>
      exact agreed_execLines hp h
        (fun line hline stages hruns stage hmem => hcall stage ⟨line, hline, stages, hruns, hmem⟩) rfl
  | execute pipeline =>
      exact agreed_execute hp h fun he stage hmem => hcall stage ⟨he, hmem⟩

/-- Calls that run the same stages are answered alike and leave related states, unless a failure of
the first run is excused. -/
theorem agreed_runCalls (hp : p.Steady) {calls : List ShellCall} (h : p.state.states s t)
    (hcalls : ∀ call ∈ calls, ∀ stage, call.Runs stage → p.Handles handlers handlers' stage)
    (hunexcused : ∀ call r, (call, .ok r) ∈ calls.zip (handlers.runCalls calls s).1 →
      call.RunsStages → ∀ f, p.excused f → r.error ≠ some f.message) :
    List.Forall₂ p.SameAnswer (handlers.runCalls calls s).1 (handlers'.runCalls calls t).1
      ∧ p.state.states (handlers.runCalls calls s).2 (handlers'.runCalls calls t).2 := by
  induction calls generalizing s t with
  | nil => exact ⟨.nil, h⟩
  | cons call rest ih =>
      rw [Handlers.runCalls_cons] at hunexcused ⊢
      rw [Handlers.runCalls_cons]
      have hcall := agreed_call hp h (hcalls call (by simp))
      generalize (handlers.call call).outcome s = out at hcall hunexcused ⊢
      generalize (handlers'.call call).outcome t = out' at hcall ⊢
      cases hcall with
      | same hanswer hs =>
          obtain ⟨hanswers, hend⟩ := ih hs (fun call hmem => hcalls call (by simp [hmem]))
            fun call r hr => hunexcused call r (List.mem_cons_of_mem _ hr)
          exact ⟨.cons hanswer hanswers, hend⟩
      | excused hruns hf he => exact absurd he (hunexcused _ _ List.mem_cons_self hruns _ hf)

end Pairing

end PipeShell
