import PipeShell.Proofs.Shell.Sequence

/-!
# Stages that only observe the store

As long as no verb of a pipeline changes the store, the stages leave it as it is. What they answer
does not depend on the records that were noted before.
-/

namespace PipeShell

open PipeShell.Action

namespace Pairing

/-- A shell that runs twice, from worlds that differ in their records at most. The store stays what it
is, and only the working directory of the shell changes. -/
def observing (a : Shell) (backing : Backing) (faults : Faults) : Pairing where
  picker := a.picker
  worlds v w := (∃ log, v = { w with log }) ∧ w.backing = backing ∧ w.faults = faults
  shells b c := b = c ∧ ∃ cwd, b = { a with cwd }
  lax := False
  excused _ := False
  named _ := True
  shown _ := True
  path _ := True
  picked _ := True
  near _ _ := True

variable {a : Shell} {backing : Backing} {faults : Faults} {α : Type} {P : α → Prop}

/-! ## The world -/

theorem ends_observing {w : World} (hP : ∀ r, P r) (hw : w.backing = backing ∧ w.faults = faults)
    (log : List LogRecord) (r : Except Failure α) :
    (observing a backing faults).world.Ends (fun a b => a = b ∧ P a) (r, { w with log }) (r, w) := by
  cases r with
  | ok r => exact .gave ⟨rfl, hP r⟩ ⟨⟨log, rfl⟩, hw⟩
  | error f => exact .failed (.inl rfl) ⟨⟨log, rfl⟩, hw⟩

theorem alike_observing_ask {memory : Memory → Except Failure α}
    {host : Host → Disk → Except Failure α} (hP : ∀ r, P r) :
    (observing a backing faults).world.Alike (World.ask memory host) P := by
  rintro _ w ⟨⟨log, rfl⟩, hw⟩
  have hself := ends_observing (a := a) hP hw log
  obtain ⟨store, _, disk, _, _⟩ := w
  cases store with
  | memory m => exact hself (memory m)
  | host h => exact hself (host h disk)
  | abstract => exact hself (.error .notImplemented)

theorem alike_observing_onDisk {x : Action Disk α} (hP : ∀ r, P r) :
    (observing a backing faults).world.Alike (World.onDisk x) P := by
  rintro _ w ⟨⟨log, rfl⟩, hw⟩
  exact ends_observing (w := { w with disk := (x w.disk).2 }) hP hw log (x w.disk).1

theorem alike_observing_read {path : Text} {P : Text → Prop} (hP : ∀ t, P t) :
    (observing a backing faults).world.Alike (Store.read path) P := by
  refine Tie.Pairs.bind Tie.pairs_get ?_
  rintro _ w ⟨⟨log, rfl⟩, -⟩
  dsimp only
  cases w.faults.brokenReads with
  | none => exact alike_observing_ask hP
  | some cause => exact Tie.alike_throw _

theorem alike_observing_storageInfo :
    (observing a backing faults).world.Alike Store.storageInfo fun _ => True := by
  refine Tie.Pairs.bind Tie.pairs_get ?_
  rintro _ w ⟨⟨log, rfl⟩, -⟩
  refine Tie.alike_ite (fun _ => Tie.alike_pure trivial) fun _ => ?_
  dsimp only
  cases w.backing <;> exact Tie.alike_pure trivial

/-! ## The shell -/

theorem lawful_observing : (observing a backing faults).Lawful where
  view := fun ⟨h, _⟩ => by rw [h]
  picker := by
    rintro _ _ ⟨rfl, cwd, rfl⟩
    rfl
  cwd _ := within_any
  enter := by
    rintro _ _ cwd ⟨rfl, former, rfl⟩ -
    exact ⟨rfl, cwd, rfl⟩
  path_root := trivial
  path_resolve _ _ := trivial
  path_into _ _ := trivial
  path_picked _ _ := trivial
  shown_path _ := within_any
  shown_named _ := trivial
  shown_plain _ _ := trivial
  list _ := by
    refine Tie.Pairs.mono (alike_observing_ask (P := fun _ => True) fun _ => trivial) ?_
    rintro es _ ⟨rfl, -⟩
    exact ⟨rfl, fun _ => rfl, fun _ _ => ⟨within_any, within_any⟩⟩
  read _ := alike_observing_read fun _ => within_any
  holds _ := alike_observing_ask fun _ => trivial
  isDirectory _ := alike_observing_ask fun _ => trivial
  countClear := by
    rintro _ w ⟨⟨log, rfl⟩, hw⟩
    exact ends_observing (w := { w with clears := w.clears + 1 }) (fun _ => trivial) hw log (.ok ())
  pick := by
    rintro _ w picker names - ⟨⟨log, rfl⟩, -⟩ - -
    exact Tie.sameAttempts_self fun _ _ _ _ => ⟨trivial, within_any⟩
  save _ _ _ := alike_observing_onDisk fun _ => within_any

theorem steady_observing : (observing a backing faults).Steady where
  view := And.left
  noted := by
    rintro _ w records records' ⟨⟨log, rfl⟩, hw⟩ -
    exact ⟨⟨log ++ records, rfl⟩, hw⟩
  expected h := h.elim

theorem handles_observing {stage : Stage} (hstage : stage.verb ∉ Verb.changing) :
    (observing a backing faults).Handles Command.ofVerb Command.ofVerb stage := by
  intro _ _ _ piped _
  refine answers_ofVerb_of_not_mem lawful_observing hstage ⟨fun arg _ => ?_, fun _ _ _ _ => trivial⟩
    (fun _ _ => within_any) fun _ => alike_observing_storageInfo
  cases arg.2 <;> simp [Value.Within, within_any, observing]

end Pairing

namespace Shell

/-- Stages that do not change the store leave it as it is. What they answer, and where they lead the
shell, does not depend on the records that were noted before. -/
theorem execute_observing {stages : List Stage}
    (hstages : ∀ stage ∈ stages, stage.verb ∉ Verb.changing) (s : ShellState)
    (records : List LogRecord) :
    (execute (pipe stages) (s.noted records)).1 = (execute (pipe stages) s).1
      ∧ (execute (pipe stages) (s.noted records)).2.shell = (execute (pipe stages) s).2.shell
      ∧ (execute (pipe stages) (s.noted records)).2.world.backing = s.world.backing
      ∧ (execute (pipe stages) (s.noted records)).2.world.faults = s.world.faults := by
  have hstates : (Pairing.observing s.shell s.world.backing s.world.faults).state.states
      (s.noted records) s :=
    ⟨⟨rfl, s.shell.cwd, rfl⟩, ⟨_, rfl⟩, rfl, rfl⟩
  have hanswered : (Pairing.observing s.shell s.world.backing s.world.faults).StageAnswered
      (execute (pipe stages) (s.noted records)) (execute (pipe stages) s) :=
    Pairing.answered_execute Pairing.steady_observing hstates fun _ stage hmem =>
      Pairing.handles_observing (hstages stage hmem)
  generalize execute (pipe stages) (s.noted records) = out at hanswered ⊢
  generalize execute (pipe stages) s = out' at hanswered ⊢
  cases hanswered with
  | gave _ _ hs =>
      obtain ⟨⟨hshell, -⟩, ⟨log, hworld⟩, hbacking, hfaults⟩ := hs
      rw [hworld]
      exact ⟨rfl, hshell, hbacking, hfaults⟩
  | failed _ _ hr hs =>
      obtain ⟨⟨hshell, -⟩, ⟨log, hworld⟩, hbacking, hfaults⟩ := hs
      rw [hworld]
      exact ⟨hr.resolve_right id, hshell, hbacking, hfaults⟩
  | excused hf => exact hf.elim

end Shell

end PipeShell
