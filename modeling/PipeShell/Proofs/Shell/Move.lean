import PipeShell.Proofs.Shell.Stage
import PipeShell.Proofs.Store.Calls

/-!
# Moving files

A move that succeeds puts the source's content at the destination and leaves all other files alone,
unless the two paths lead to one file: then the file is lost when the paths are written differently,
and even a missing file counts as moved when they are not.
-/

namespace PipeShell

namespace Command

open PipeShell.Action

/-- The path that a move or a copy leads to: a directory takes the entry under its own name. -/
def destination (m : Memory) (source dest : Text) : Text :=
  if m.isDirectory dest || dest = [] then Path.join [dest, Path.name source] else dest

variable {s s' : ShellState} {m : Memory} {args : Args} {a b : Text}

theorem outcome_withPaths (hw : s.world.backing = .memory m) (ha : args.text? .source = some a)
    (hb : args.text? .dest = some b) (form : Text) (run : Text → Text → Command) :
    (withPaths args form run).outcome s
      = (run (s.shell.resolve (some a))
          (destination m (s.shell.resolve (some a)) (s.shell.resolve (some b)))).outcome s := by
  simp only [withPaths, ha, hb, outcome_bind, outcome_resolve, outcome_liftM_world,
    Store.outcome_isDirectory hw]
  rfl

end Command

namespace Shell

open PipeShell.Action Command

variable {s s' : ShellState} {m : Memory} {args : Args} {before : Option Text} {r : Result}

theorem Ran.outcome_of_succeeded {stage : Stage} (h : Ran stage before s r s')
    (hr : r.succeeded = true) :
    ∃ records answer, (Command.ofVerb stage.verb stage.args
      (if stage.verb.isPipeAware then before else none)).outcome (s.noted records)
        = (.ok answer, s') := by
  cases h with
  | unknown | disabled | refused | broken => simp [Result.succeeded, Result.fail] at hr
  | answered ho => exact ⟨_, _, ho⟩

/-- A move that succeeds has moved the file, unless source and destination lead to one file and are
written differently, or are written alike and lead to no file. -/
theorem moved_iff_of_succeeded {a b source dest : Text} (hm : m.Reached)
    (hw : s.world.backing = .memory m) (hf : s.world.faults = {})
    (ha : args.text? .source = some a) (hb : args.text? .dest = some b)
    (hs : source = s.shell.resolve (some a))
    (hd : dest = destination m source (s.shell.resolve (some b)))
    (hrun : runStage ⟨.move, args⟩ before s = (r, s')) (hr : r.succeeded = true) :
    ∃ m', s'.world.backing = .memory m'
      ∧ (m.pathMap.Moved m'.pathMap (Path.segments source) (Path.segments dest)
        ↔ (Path.segments source = Path.segments dest →
            source = dest ∧ m.pathMap.IsFile (Path.segments source))) := by
  have hran := ran_runStage ⟨.move, args⟩ before s
  rw [hrun] at hran
  obtain ⟨records, answer, ho⟩ := hran.outcome_of_succeeded hr
  have ho : (Command.move args).outcome (s.noted records) = (.ok answer, s') := ho
  rw [Command.move, outcome_withPaths (s := s.noted records) (m := m) hw ha hb] at ho
  obtain ⟨_, t, hmove, hanswer⟩ := bind_eq_ok ho
  obtain ⟨m', records', hworld, _, hends⟩ :=
    Store.settles_move (w := (s.noted records).world) hm.tidy hw hf source dest
  have hshell : (s.noted records).shell = s.shell := rfl
  rw [hshell, ← hs, ← hd, outcome_liftM_world, Prod.mk.injEq] at hmove
  obtain ⟨hok, rfl⟩ := hmove
  obtain rfl := (Prod.mk.injEq _ _ _ _).mp hanswer |>.2
  rw [hok] at hends
  refine ⟨m', by rw [hworld]; rfl, ?_⟩
  cases hends with
  | done hopen hmap _ =>
      rw [hmap]
      by_cases hsame : source = dest
      · subst hsame
        simpa using PathMap.moved_self
      · have hfile : m.pathMap.IsFile (Path.segments source) :=
          Classical.not_not.mp fun h => hopen (Or.inr ⟨hsame, Or.inl h⟩)
        rw [if_neg hsame, PathMap.moved_copy_unbind hfile]
        simp [hsame]

/-- The state of a fresh shell around a store with the single file `a`. -/
def singleState : ShellState :=
  ⟨{}, .ofMemory { tree := .file ['a'] ['x'] .empty, quota := 10 } {} {}⟩

/-- Moving `a` to `b` moves it. -/
theorem moved_to_other_name :
    ∃ m' : Memory,
      (runStage ⟨.move, [(.source, .text ['a']), (.dest, .text ['b'])]⟩ none
        singleState).2.world.backing = .memory m'
      ∧ PathMap.Moved (Memory.pathMap { tree := .file ['a'] ['x'] .empty, quota := 10 }) m'.pathMap
        [['a']] [['b']] := by
  obtain ⟨m', hback, hmoved⟩ :=
    @moved_iff_of_succeeded singleState _ _ [(.source, .text ['a']), (.dest, .text ['b'])] none _
      ['a'] ['b'] ['a'] ['b'] Call.reached_single rfl rfl rfl rfl rfl rfl rfl rfl
  exact ⟨m', hback, hmoved.mpr fun h => absurd h (by decide)⟩

/-- A file can be lost: the path with a root of its own in front leads to the file at its
destination, and the move deletes the only copy. A missing file can count as moved to itself. -/
theorem succeeded_not_moved :
    (∃ s', runStage ⟨.move, [(.source, .text ['/', '/', 'a']), (.dest, .text ['a'])]⟩ none
          singleState = (.ok "Moved: ////a -> /a", s')
        ∧ s'.world.backing = .memory { tree := .empty, quota := 10 })
      ∧ ∃ s', runStage ⟨.move, [(.source, .text ['b']), (.dest, .text ['b'])]⟩ none
          singleState = (.ok "Moved: /b -> /b", s')
        ∧ s'.world.backing = .memory { tree := .file ['a'] ['x'] .empty, quota := 10 } :=
  ⟨⟨_, rfl, rfl⟩, ⟨_, rfl, rfl⟩⟩

end Shell

end PipeShell
