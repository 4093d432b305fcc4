import PipeShell.Proofs.Shell.Sequence
import PipeShell.Proofs.Text.ScriptLines

/-!
# Scripts after scripts

A script runs like its first part and, if that succeeds, the rest as a script of its own. What ends
its lines and which blank lines it has does not matter.
-/

namespace PipeShell

open Text (LineEnd)

namespace Handlers

variable (handlers : Handlers)

/-- Runs a script and, if it succeeds, another one. The last answer is that of the second script, if
this has lines. -/
def scriptThen (a b : Text) : Command := do
  let r ← handlers.execScript a
  if r.succeeded then
    let r' ← handlers.execScript b
    return if Text.strip b = [] then r else r'
  else return r

theorem outcome_execLines_cons (last : Result) (line : Text) (rest : List Text) (s : ShellState) :
    (handlers.execLines last (line :: rest)).outcome s
      = match (handlers.exec line).outcome s with
        | (.ok r, t) => if r.succeeded then (handlers.execLines r rest).outcome t else (.ok r, t)
        | (.error f, t) => (.error f, t) := by
  rw [execLines, Action.outcome_bind]
  generalize (handlers.exec line).outcome s = out
  obtain ⟨answer, t⟩ := out
  cases answer with
  | error f => rfl
  | ok r => exact Action.outcome_ite _ _ _ t

/-- Further lines run after those before them have succeeded. -/
theorem outcome_execLines_append (front back : List Text) {last : Result}
    (hlast : last.succeeded = true) (s : ShellState) :
    (handlers.execLines last (front ++ back)).outcome s
      = match (handlers.execLines last front).outcome s with
        | (.ok r, t) => if r.succeeded then (handlers.execLines r back).outcome t else (.ok r, t)
        | (.error f, t) => (.error f, t) := by
  induction front generalizing last s with
  | nil => exact (if_pos hlast).symm
  | cons line front ih =>
      rw [List.cons_append, outcome_execLines_cons, outcome_execLines_cons]
      generalize (handlers.exec line).outcome s = out
      obtain ⟨answer, t⟩ := out
      cases answer with
      | error f => rfl
      | ok r =>
          dsimp only
          by_cases hr : r.succeeded = true
          · rw [if_pos hr, if_pos hr, ih hr]
          · rw [if_neg hr, if_neg hr]
            exact (if_neg hr).symm

/-- The answer that was given last only counts if there are no lines. -/
theorem execLines_of_ne_nil {lines : List Text} (h : lines ≠ []) (last last' : Result) :
    handlers.execLines last lines = handlers.execLines last' lines := by
  cases lines with
  | nil => exact absurd rfl h
  | cons line rest => rfl

/-- The lines of a script, run after a script that gave an answer. -/
theorem outcome_execLines_script (last : Result) (b : Text) (s : ShellState) :
    (handlers.execLines last (Text.scriptLines b)).outcome s
      = match (handlers.execScript b).outcome s with
        | (.ok r, t) => (.ok (if Text.strip b = [] then last else r), t)
        | (.error f, t) => (.error f, t) := by
  by_cases hb : Text.strip b = []
  · simp only [execScript, Text.scriptLines_eq_nil_iff.mpr hb, hb, if_true]
    rfl
  · have hlines : Text.scriptLines b ≠ [] := mt Text.scriptLines_eq_nil_iff.mp hb
    simp only [execScript, handlers.execLines_of_ne_nil hlines last (.ok []), hb, if_false]
    generalize (handlers.execLines (.ok []) (Text.scriptLines b)).outcome s = out
    obtain ⟨answer, t⟩ := out
    cases answer <;> rfl

theorem outcome_scriptThen (a b : Text) (s : ShellState) :
    (handlers.scriptThen a b).outcome s
      = match (handlers.execScript a).outcome s with
        | (.ok r, t) =>
            if r.succeeded then (handlers.execLines r (Text.scriptLines b)).outcome t
            else (.ok r, t)
        | (.error f, t) => (.error f, t) := by
  rw [scriptThen, Action.outcome_bind]
  generalize (handlers.execScript a).outcome s = out
  obtain ⟨answer, t⟩ := out
  cases answer with
  | error f => rfl
  | ok r =>
      dsimp only
      rw [Action.outcome_ite, Action.outcome_bind, outcome_execLines_script]
      generalize (handlers.execScript b).outcome t = out'
      obtain ⟨answer', t'⟩ := out'
      cases answer' <;> rfl

end Handlers

namespace Shell

/-- Runs a script and, if it succeeds, another one. -/
abbrev scriptThen : Text → Text → Command :=
  Handlers.scriptThen Command.ofVerb

/-- Two scripts with a line feed between them run as one after the other: a failure of the first
one ends both, and no line behind it runs. Scripts whose rows only differ in blank ones, and in what
ends them, run alike. -/
theorem execScript_append :
    (∀ (a b : Text) (s : ShellState),
        (execScript (a ++ '\n' :: b)).outcome s = (scriptThen a b).outcome s)
      ∧ (∀ (a : Text) (s t : ShellState) (r : Result),
        (execScript a).outcome s = (.ok r, t) → r.succeeded = false →
        ∀ b, (execScript (a ++ '\n' :: b)).outcome s = (.ok r, t))
      ∧ ∀ (rows rows' : List (Text × LineEnd)) (last last' : Text),
        Text.filledRows rows last = Text.filledRows rows' last' →
        execScript (Text.ofRows rows last) = execScript (Text.ofRows rows' last') := by
  have happend (a b : Text) (s : ShellState) :
      (execScript (a ++ '\n' :: b)).outcome s = (scriptThen a b).outcome s := by
    rw [scriptThen, Handlers.outcome_scriptThen, execScript, Handlers.execScript,
      Text.scriptLines_append_cons a b rfl]
    exact Handlers.outcome_execLines_append _ _ _ rfl s
  refine ⟨happend, fun a s t r ha hr b => ?_, fun rows rows' last last' h => ?_⟩
  · rw [happend, scriptThen, Handlers.outcome_scriptThen, ha]
    simp [hr]
  · rw [execScript, Handlers.execScript, Handlers.execScript, Text.scriptLines_ofRows,
      Text.scriptLines_ofRows, h]

/-- A file that is not there ends a script before a directory is made, also behind a carriage return
of its own. -/
theorem execScript_append_missing :
    ((execScript "rm a\r").outcome fresh).1 = .ok (.fail "No such file or directory: /a")
      ∧ (execScript ("rm a\r" ++ '\n' :: "mkdir b")).outcome fresh
        = (execScript "rm a\r").outcome fresh
      ∧ (execScript ("\u2028" ++ '\n' :: "mkdir b")).outcome fresh
        = (scriptThen "\u2028" "mkdir b").outcome fresh
      ∧ execScript (Text.ofRows [("mkdir a", .lineFeed), (" ", .carriageReturn)] "pwd")
        = execScript (Text.ofRows [("mkdir a", .both)] "pwd") := by
  have ha : ((execScript "rm a\r").outcome fresh).1
      = .ok (.fail "No such file or directory: /a") := rfl
  have hout := Prod.ext ha (Eq.refl ((execScript "rm a\r").outcome fresh).2)
  refine ⟨ha, ?_, execScript_append.1 _ _ _, execScript_append.2.2 _ _ _ _ rfl⟩
  exact (execScript_append.2.1 _ _ _ _ hout rfl _).trans hout.symm

end Shell

end PipeShell
