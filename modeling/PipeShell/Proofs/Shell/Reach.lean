import PipeShell.Proofs.Shell.FileCommands
import PipeShell.Proofs.Shell.Move
import PipeShell.Proofs.Store.Outside

/-!
# What a command can reach

A command on files changes the files that its arguments name and no others, whether it succeeds or
fails. Directories disappear only where a directory is removed.
-/

namespace PipeShell

open PipeShell.Action
open PipeShell.Path (segments)

/-- The verbs that create, write, copy, move or remove entries by their paths. -/
def Verb.onFiles : List Verb :=
  [.makeDirectory, .createEmpty, .write, .copy, .move, .remove, .removeDirectory]

namespace Shell

/-- The store path that an argument names. -/
def target? (sh : Shell) (args : Args) (key : Key) : Option Text :=
  (args.text? key).map fun path => sh.resolve (some path)

/-- An argument names the place. -/
def Names (sh : Shell) (args : Args) (key : Key) (q : List Text) : Prop :=
  ∃ target, sh.target? args key = some target ∧ q = segments target

/-- The place is the one that the path argument names, or below it. -/
def NamesAbove (sh : Shell) (args : Args) (q : List Text) : Prop :=
  ∃ target, sh.target? args .path = some target ∧ segments target <+: q

/-- The place is where a copy or a move of the arguments leads to. -/
def LeadsTo (sh : Shell) (m : Memory) (args : Args) (q : List Text) : Prop :=
  ∃ source dest, sh.target? args .source = some source ∧ sh.target? args .dest = some dest
    ∧ q = segments (Command.destination m source dest)

/-- The files that a verb may change. -/
def MayChange (sh : Shell) (m : Memory) (args : Args) (q : List Text) : Verb → Prop
  | .createEmpty => sh.Names args .path q ∧ ¬m.pathMap.IsFile q
  | .write => sh.Names args .path q
  | .copy => sh.LeadsTo m args q
  | .move => sh.LeadsTo m args q ∨ sh.Names args .source q
  | .remove => sh.Names args .path q ∨ args.holds .recursive ∧ sh.NamesAbove args q
  | .removeDirectory => sh.NamesAbove args q
  | _ => False

/-- The directories that a verb may delete. -/
def MayDelete (sh : Shell) (args : Args) (q : List Text) : Verb → Prop
  | .remove => args.holds .recursive ∧ sh.NamesAbove args q
  | .removeDirectory => sh.NamesAbove args q
  | _ => False

/-- The store is tidy and has all that the verb may not change or delete. -/
abbrev KeepsRest (sh : Shell) (m : Memory) (args : Args) (v : Verb) : Memory → Prop :=
  m.KeptOutside (sh.MayChange m args · v) (sh.MayDelete args · v)

end Shell

namespace Command

variable {α : Type} {sh : Shell} {m : Memory} {args : Args} {I : Memory → Prop} {form : Text}

/-- Whatever it gives, the action leaves the shell as it is and leads from a store in memory with `I`
to such a store. -/
abbrev Preserves (sh : Shell) (I : Memory → Prop) (x : Action ShellState α) : Prop :=
  x.Yields (fun s => s.shell = sh ∧ s.world.Holding I) (fun _ => True) (fun _ => True)

theorem preserves_store {x : Action World α} (hx : Store.Keeps I x) : Preserves sh I (liftM x) := by
  refine yields_of_outcome fun s hs => ?_
  rw [outcome_liftM_world]
  exact ⟨⟨hs.1, hx.kept _ hs.2⟩, hx.result _ hs.2⟩

theorem preserves_target (path : Text) (hpath : args.text? .path = some path) :
    (resolve (some path)).Yields (fun s => s.shell = sh ∧ s.world.Holding I)
      (sh.target? args .path = some ·) (fun _ => True) := by
  refine yields_of_outcome fun s hs => ⟨hs, Attempt.gives_ok ?_⟩
  rw [Shell.target?, hpath, ← hs.1]
  rfl

theorem preserves_withPath {run : Text → Command}
    (hrun : ∀ target, sh.target? args .path = some target → Preserves sh I (run target)) :
    Preserves sh I (withPath args form run) :=
  yields_withPath (fun _ => trivial) preserves_target hrun

/-! ## Commands -/

/-- Run as the verb, the action keeps all that the verb may not change or delete. -/
abbrev StaysWithin (sh : Shell) (m : Memory) (args : Args) (v : Verb) (x : Command) : Prop :=
  Preserves sh (sh.KeepsRest m args v) x

theorem stays_makeDirectory : StaysWithin sh m args .makeDirectory (makeDirectory args) :=
  preserves_withPath fun _ _ =>
    (preserves_store Store.keepsOutside_createDirectory).bind fun _ _ => yields_pure trivial

theorem stays_createEmpty
    (hmissing : ∀ target, sh.target? args .path = some target → ¬m.pathMap.IsFile (segments target)) :
    StaysWithin sh m args .createEmpty (createEmpty args) := by
  refine yields_createEmpty (fun _ => trivial) preserves_target
    (fun target _ => preserves_store (Store.keeps_holds target))
    (fun target _ => preserves_store (Store.keeps_isDirectory target))
    (fun target htarget => preserves_store (Store.keepsOutside_createFile ?_ []))
    (fun _ _ => trivial) fun _ _ => trivial
  exact ⟨⟨target, htarget, rfl⟩, hmissing target htarget⟩

theorem stays_write (piped : Option Text) : StaysWithin sh m args .write (write args piped) := by
  have hchange (target : Text) (htarget : sh.target? args .path = some target) :
      sh.MayChange m args (segments target) .write := ⟨target, htarget, rfl⟩
  exact yields_write (fun _ => trivial) preserves_target
    (fun target _ => preserves_store (Store.keeps_holds target)) piped
    (fun target _ => preserves_store (Store.keeps_read target))
    (fun target content htarget =>
      preserves_store (Store.keepsOutside_write (hchange target htarget) content))
    (fun target content htarget =>
      preserves_store (Store.keepsOutside_createFile (hchange target htarget) content))
    fun _ _ => trivial

theorem stays_removeDirectory : StaysWithin sh m args .removeDirectory (removeDirectory args) := by
  refine preserves_withPath fun target htarget => ?_
  have hbelow (q : List Text) (hq : segments target <+: q) : sh.NamesAbove args q :=
    ⟨target, htarget, hq⟩
  exact (preserves_store (Store.keepsOutside_deleteDirectory hbelow hbelow)).bind fun _ _ =>
    yields_pure trivial

theorem stays_remove : StaysWithin sh m args .remove (remove args) := by
  have hbelow (hrecursive : args.holds .recursive) (target : Text)
      (htarget : sh.target? args .path = some target) (q : List Text) (hq : segments target <+: q) :
      args.holds .recursive ∧ sh.NamesAbove args q :=
    ⟨hrecursive, target, htarget, hq⟩
  refine yields_remove (fun _ => trivial) preserves_target
    (fun target _ => preserves_store (Store.keeps_isDirectory target))
    (fun target htarget => preserves_store (Store.keepsOutside_deleteFile ?_))
    (fun hrecursive target htarget => preserves_store (Store.keepsOutside_deleteDirectory ?_ ?_))
    (fun _ _ => trivial) fun _ _ => trivial
  · exact .inl ⟨target, htarget, rfl⟩
  · exact fun q hq => .inr (hbelow hrecursive target htarget q hq)
  · exact hbelow hrecursive target htarget

/-! ## Commands at a store -/

section

variable {s : ShellState} (hw : s.world.backing = .memory m)

include hw

/-- A file that exists is left as it is. -/
theorem createEmpty_of_file {target : Text} (htarget : s.shell.target? args .path = some target)
    (hfile : m.pathMap.IsFile (segments target)) : ((createEmpty args).outcome s).2 = s := by
  obtain ⟨path, hpath, rfl⟩ := Option.map_eq_some_iff.mp htarget
  have hheld : m.holds (s.shell.resolve (some path)) = true := by
    obtain ⟨text, h⟩ := hfile
    simp [Memory.holds_iff, h]
  have hdir : m.isDirectory (s.shell.resolve (some path)) = false := by
    rw [← Bool.not_eq_true, Memory.isDirectory_iff]
    exact hfile.not_directory
  simp only [createEmpty, withPath, hpath, outcome_bind, outcome_resolve, outcome_liftM_world,
    Store.outcome_holds hw, Store.outcome_isDirectory hw, hheld, hdir, outcome_ite]
  rfl

theorem holding_createEmpty (hm : m.Tidy Path.IsSegment) :
    ((createEmpty args).outcome s).2.world.Holding (s.shell.KeepsRest m args .createEmpty) := by
  have hs : s.world.Holding (s.shell.KeepsRest m args .createEmpty) := ⟨m, hw, .refl hm⟩
  -- A file that exists may not change, so the general rule only covers a path without one.
  by_cases h : ∃ target, s.shell.target? args .path = some target
      ∧ m.pathMap.IsFile (segments target)
  · obtain ⟨target, htarget, hfile⟩ := h
    rwa [createEmpty_of_file hw htarget hfile]
  · have hstays := stays_createEmpty fun target htarget hfile => h ⟨target, htarget, hfile⟩
    exact (hstays.kept s ⟨rfl, hs⟩).2

/-- A copy or a move that keeps `I` at the place where it leads to keeps `I`. -/
theorem holding_withPaths {run : Text → Text → Command} (hI : I m)
    (hrun : ∀ source dest, s.shell.target? args .source = some source →
      s.shell.target? args .dest = some dest →
        Preserves s.shell I (run source (destination m source dest))) :
    ((withPaths args form run).outcome s).2.world.Holding I := by
  have hs : s.world.Holding I := ⟨m, hw, hI⟩
  cases ha : args.text? .source with
  | none => simpa [withPaths, ha] using hs
  | some a =>
      cases hb : args.text? .dest with
      | none => simpa [withPaths, ha, hb] using hs
      | some b =>
          rw [outcome_withPaths hw ha hb]
          have hsource : s.shell.target? args .source = some (s.shell.resolve (some a)) := by
            simp [Shell.target?, ha]
          have hdest : s.shell.target? args .dest = some (s.shell.resolve (some b)) := by
            simp [Shell.target?, hb]
          exact ((hrun _ _ hsource hdest).kept s ⟨rfl, hs⟩).2

theorem holding_copy (hm : m.Tidy Path.IsSegment) :
    ((copy args).outcome s).2.world.Holding (s.shell.KeepsRest m args .copy) :=
  holding_withPaths hw (.refl hm) fun source dest hsource hdest =>
    (preserves_store (Store.keepsOutside_copy ⟨source, dest, hsource, hdest, rfl⟩)).bind fun _ _ =>
      yields_pure trivial

theorem holding_move (hm : m.Tidy Path.IsSegment) :
    ((move args).outcome s).2.world.Holding (s.shell.KeepsRest m args .move) :=
  holding_withPaths hw (.refl hm) fun source dest hsource hdest => by
    have hleads : s.shell.LeadsTo m args (segments (destination m source dest)) :=
      ⟨source, dest, hsource, hdest, rfl⟩
    refine (preserves_store (Store.keepsOutside_move ?_ (.inl hleads))).bind fun _ _ =>
      yields_pure trivial
    exact .inr ⟨source, hsource, rfl⟩

/-- A command on files, whatever it answers, keeps what it may not change or delete. -/
theorem holding_ofVerb (hm : m.Tidy Path.IsSegment) {v : Verb} (hv : v ∈ Verb.onFiles)
    (args : Args) (piped : Option Text) :
    ((ofVerb v args piped).outcome s).2.world.Holding (s.shell.KeepsRest m args v) := by
  have of_stays {v : Verb} {x : Command} (hx : StaysWithin s.shell m args v x) :
      (x.outcome s).2.world.Holding (s.shell.KeepsRest m args v) :=
    (hx.kept s ⟨rfl, m, hw, .refl hm⟩).2
  simp only [Verb.onFiles, List.mem_cons, List.not_mem_nil, or_false] at hv
  rcases hv with rfl | rfl | rfl | rfl | rfl | rfl | rfl
  · exact of_stays stays_makeDirectory
  · exact holding_createEmpty hw hm
  · exact of_stays (stays_write piped)
  · exact holding_copy hw hm
  · exact holding_move hw hm
  · exact of_stays stays_remove
  · exact of_stays stays_removeDirectory

end

end Command

/-! ## Stages -/

namespace Shell

variable {s s' : ShellState} {m : Memory} {stage : Stage} {before : Option Text} {r : Result}

/-- What the command leaves in the store stays there, and a stage without a command leaves it as it
was. -/
theorem Ran.holding (h : Ran stage before s r s') (hm : m.Tidy Path.IsSegment)
    (hw : s.world.backing = .memory m) (hv : stage.verb ∈ Verb.onFiles) :
    s'.world.Holding (s.shell.KeepsRest m stage.args stage.verb) := by
  have hrun {records : List LogRecord} {answer : Except Failure Result} {t : ShellState}
      (ho : (Command.ofVerb stage.verb stage.args
        (if stage.verb.isPipeAware then before else none)).outcome (s.noted records) = (answer, t)) :
      t.world.Holding (s.shell.KeepsRest m stage.args stage.verb) := by
    have hafter := Command.holding_ofVerb (s := s.noted records) hw hm hv stage.args
      (if stage.verb.isPipeAware then before else none)
    rwa [ho] at hafter
  cases h with
  | unknown | disabled => exact ⟨m, hw, .refl hm⟩
  | answered ho => exact hrun ho
  | refused ho => exact hrun ho
  | broken ho => exact (hrun ho :)

/-- A stage of a verb on files, whatever comes of it, keeps every file that the verb may not change
with these arguments and every directory that it may not delete. Creating an empty file never changes
one that exists. -/
theorem runStage_keptOutside (stage : Stage) (before : Option Text) (hm : m.Reached)
    (hw : s.world.backing = .memory m) (hv : stage.verb ∈ Verb.onFiles) :
    ∃ m', (runStage stage before s).2.world.backing = .memory m'
      ∧ m.pathMap.KeptOutside (s.shell.MayChange m stage.args · stage.verb)
          (s.shell.MayDelete stage.args · stage.verb) m'.pathMap
      ∧ (stage.verb = .createEmpty →
          ∀ q text, m.pathMap q = some (.file text) → m'.pathMap q = some (.file text)) := by
  obtain ⟨m', hback, -, hkept⟩ := (ran_runStage stage before s).holding hm.tidy hw hv
  refine ⟨m', hback, hkept, fun hverb q text hq => ?_⟩
  have hfree : ¬s.shell.MayChange m stage.args q stage.verb := by
    rw [hverb]
    exact fun hchange => hchange.2 ⟨text, hq⟩
  exact (hkept.file q hfree text).mpr hq

/-- Writing `b` leaves `a` as it is. -/
theorem runStage_keptOutside_write :
    ∃ m', (runStage ⟨.write, [(.path, .text ['b']), (.content, .text ['y'])]⟩ none
        singleState).2.world.backing = .memory m'
      ∧ m'.pathMap [['a']] = some (.file ['x']) := by
  obtain ⟨m', hback, hkept, -⟩ := runStage_keptOutside (s := singleState)
    ⟨.write, [(.path, .text ['b']), (.content, .text ['y'])]⟩ none Call.reached_single rfl
    (by decide)
  refine ⟨m', hback, (hkept.file [['a']] ?_ ['x']).mpr rfl⟩
  rintro ⟨target, htarget, hq⟩
  obtain rfl : ['b'] = target := Option.some.inj htarget
  exact absurd hq (by decide)

end Shell

end PipeShell
