import PipeShell.Proofs.Store.Settled
import PipeShell.Proofs.Store.Tidy
import PipeShell.Store.Setup

/-!
# Calls of a store in memory

A store in memory is a map from paths to bindings: a call that succeeds makes the change of the map
that it stands for, and the map alone decides which calls are refused.
-/

namespace PipeShell

/-- The calls that read or change a store. -/
inductive Call
  | read (path : Text)
  | write (path content : Text)
  | createFile (path content : Text)
  | createDirectory (path : Text)
  | deleteFile (path : Text)
  | deleteDirectory (path : Text)
  | copy (source dest : Text)
  | move (source dest : Text)
  | clear

namespace Call

open PipeShell.Path (segments)

/-- Runs a call. Only a read answers with a text. -/
def run : Call → Action World (Option Text)
  | read path => some <$> Store.read path
  | write path content => (fun _ => none) <$> Store.write path content
  | createFile path content => (fun _ => none) <$> Store.createFile path content
  | createDirectory path => (fun _ => none) <$> Store.createDirectory path
  | deleteFile path => (fun _ => none) <$> Store.deleteFile path
  | deleteDirectory path => (fun _ => none) <$> Store.deleteDirectory path
  | copy source dest => (fun _ => none) <$> Store.copy source dest
  | move source dest => (fun _ => none) <$> Store.move source dest
  | clear => (fun _ => none) <$> Store.clear

/-- The map after a call that succeeds. -/
def update : Call → PathMap → PathMap
  | read _, m => m
  | write path content, m => m.bindFile (segments path) content
  | createFile path content, m => m.create (segments path) content
  | createDirectory path, m => m.makeDirectories (segments path)
  | deleteFile path, m => m.unbind (segments path)
  | deleteDirectory path, m => m.unbindBelow (segments path)
  | copy source dest, m => m.copy (segments source) (segments dest)
  | move source dest, m =>
      if source = dest then m
      else (m.copy (segments source) (segments dest)).unbind (segments source)
  | clear, _ => PathMap.bare

/-- What a call that succeeds answers. -/
def Answers : Call → PathMap → Option Text → Prop
  | read path, m, answer => ∃ text, m (segments path) = some (.file text) ∧ answer = some text
  | _, _, answer => answer = none

/-- The map does not allow the call. -/
def Refused : Call → PathMap → Prop
  | read path, m | write path _, m | deleteFile path, m => ¬m.IsFile (segments path)
  | createFile path _, m => m.Closed (segments path)
  | createDirectory path, m => segments path = [] ∨ m.Blocked (segments path)
  | deleteDirectory path, m => segments path = [] ∨ m (segments path) ≠ some .directory
  | copy source dest, m => ¬m.IsFile (segments source) ∨ m.Closed (segments dest)
  | move source dest, m => m (segments source) = some .directory
      ∨ source ≠ dest ∧ (¬m.IsFile (segments source) ∨ m.Closed (segments dest))
  | clear, _ => False

/-- The paths of a call. -/
def paths : Call → List Text
  | read path | write path _ | createFile path _ | createDirectory path | deleteFile path
  | deleteDirectory path => [path]
  | copy source dest | move source dest => [source, dest]
  | clear => []

end Call

/-- The stores in memory that calls lead to, from one without entries and with whatever faults. -/
inductive Memory.Reached : Memory → Prop
  | fresh (quota : Int) : Reached { quota }
  | call {m m' : Memory} {w : World} (c : Call) : m.Reached → w.backing = .memory m →
      (c.run.outcome w).2.backing = .memory m' → m'.Reached

namespace Call

open PipeShell.Action

variable {admits : Text → Prop} {here : List Text} {w : World} {m : Memory}

/-! ## What every call keeps -/

theorem yields_run (c : Call) (hc : ∀ path ∈ c.paths, ∀ s ∈ Path.segments path, admits s) :
    c.run.Yields (World.Tidy admits here) (fun _ => True) (fun _ => True) := by
  have any {α : Type} {x : Action World α} {answer : α → Option Text} {E : Failure → Prop}
      (h : x.Yields (World.Tidy admits here) (fun _ => True) E) :
      (answer <$> x).Yields (World.Tidy admits here) (fun _ => True) (fun _ => True) :=
    (h.mono (fun _ h => h) fun _ _ => trivial).map fun _ _ => trivial
  cases c with
  | read path => exact any (Store.yields_read (hc path (by simp [paths])))
  | write path content => exact any (Store.yields_write (hc path (by simp [paths])) content)
  | createFile path content =>
      exact any (Store.yields_createFile (hc path (by simp [paths])) content)
  | createDirectory path => exact any (Store.yields_createDirectory (hc path (by simp [paths])))
  | deleteFile path => exact any (Store.yields_deleteFile (hc path (by simp [paths])))
  | deleteDirectory path => exact any (Store.yields_deleteDirectory (hc path (by simp [paths])))
  | copy source dest =>
      exact any (Store.yields_copy (hc source (by simp [paths])) (hc dest (by simp [paths])))
  | move source dest =>
      exact any (Store.yields_move (hc source (by simp [paths])) (hc dest (by simp [paths])))
  | clear => exact any Store.yields_clear

end Call

theorem Memory.Reached.tidy {m : Memory} (h : m.Reached) : m.Tidy Path.IsSegment := by
  induction h with
  | fresh quota => trivial
  | @call m m' w c _ hw hw' ih =>
      have hy : c.run.Yields (World.Tidy Path.IsSegment []) (fun _ => True) (fun _ => True) :=
        c.yields_run fun path _ => Path.isSegment_segments path
      exact (World.tidy_memory hw').mp (hy.kept w ((World.tidy_memory hw).mpr ih))

namespace Call

open PipeShell.Action

variable {w : World} {m : Memory}

/-! ## What a call does to the map -/

theorem settles_map {α β : Type} {refused : Prop} {update : PathMap} {answer : α → Prop}
    {answer' : β → Prop} {x : Action World α} {f : α → β}
    (h : Store.Settles w m refused update answer x) (hf : ∀ a, answer a → answer' (f a)) :
    Store.Settles w m refused update answer' (f <$> x) := by
  obtain ⟨m', records, hworld, htidy, hends⟩ := h
  refine ⟨m', records, by rw [outcome_map, hworld], htidy, ?_⟩
  rw [outcome_map]
  cases hr : (x.outcome w).1 with
  | ok a =>
      rw [hr] at hends
      cases hends with
      | done hopen hmap ha => exact .done hopen hmap (hf a ha)
  | error e =>
      rw [hr] at hends
      cases hends with
      | refused h hfail hw => exact .refused h hfail hw
      | full h hlt hw => exact .full h hlt hw

theorem settles_run (c : Call) (hm : m.Tidy Path.IsSegment) (hw : w.backing = .memory m)
    (hf : w.faults = {}) :
    Store.Settles w m (c.Refused m.pathMap) (c.update m.pathMap) (c.Answers m.pathMap) c.run := by
  have silent {α : Type} {refused : Prop} {update : PathMap} {answer : α → Prop}
      {x : Action World α} (h : Store.Settles w m refused update answer x) :
      Store.Settles w m refused update (· = none) ((fun _ => (none : Option Text)) <$> x) :=
    settles_map h fun _ _ => rfl
  cases c with
  | read path => exact settles_map (Store.settles_read hm hw hf path) fun text ht => ⟨text, ht, rfl⟩
  | write path content => exact silent (Store.settles_write hm hw hf path content)
  | createFile path content => exact silent (Store.settles_createFile hm hw path content)
  | createDirectory path => exact silent (Store.settles_createDirectory hm hw path)
  | deleteFile path => exact silent (Store.settles_deleteFile hm hw hf path)
  | deleteDirectory path => exact silent (Store.settles_deleteDirectory hm hw path)
  | copy source dest =>
      exact silent (Store.settles_copy hm hw (Store.unbroken_of_faultless hf) source dest)
  | move source dest => exact silent (Store.settles_move hm hw hf source dest)
  | clear => exact silent (Store.settles_clear hw)

/-- A store in memory is a prefix-closed map from paths to bindings. A call that succeeds makes its
change of the map and nothing else; it is refused exactly where the map says so, and fails otherwise
only for want of room. A call that fails keeps every binding. -/
theorem refines_pathMap (c : Call) (hm : m.Reached) (hw : w.backing = .memory m)
    (hf : w.faults = {}) :
    ∃ m', (c.run.outcome w).2.backing = .memory m' ∧ m'.Reached
      ∧ m.pathMap.PrefixClosed ∧ m'.pathMap.PrefixClosed
      ∧ (∀ answer, (c.run.outcome w).1 = .ok answer →
          m'.pathMap = c.update m.pathMap ∧ c.Answers m.pathMap answer)
      ∧ ((∃ f, (c.run.outcome w).1 = .error f ∧ f.IsRefusal) ↔ c.Refused m.pathMap)
      ∧ ∀ f, (c.run.outcome w).1 = .error f → m.pathMap.Within m'.pathMap
          ∧ (¬f.IsRefusal → ∃ projected, f = .quotaExceeded projected m.quota
            ∧ m.quota < projected) := by
  obtain ⟨m', records, hworld, _, hends⟩ := settles_run c hm.tidy hw hf
  have hback : (c.run.outcome w).2.backing = .memory m' := by rw [hworld]; rfl
  refine ⟨m', hback, hm.call c hw hback, m.prefixClosed_pathMap, m'.prefixClosed_pathMap, ?_⟩
  generalize (c.run.outcome w).1 = r at hends
  cases hends with
  | done hopen hmap ha =>
      refine ⟨?_, ?_, ?_⟩
      · rintro _ ⟨⟩
        exact ⟨hmap, ha⟩
      · exact ⟨fun ⟨f, hf, _⟩ => (nomatch hf), fun h => absurd h hopen⟩
      · rintro _ ⟨⟩
  | refused hr hfail hwithin =>
      refine ⟨?_, ⟨fun _ => hr, fun _ => ⟨_, rfl, hfail⟩⟩, ?_⟩
      · rintro _ ⟨⟩
      · rintro _ ⟨⟩
        exact ⟨hwithin, fun h => absurd hfail h⟩
  | full hopen hlt hwithin =>
      refine ⟨?_, ?_, ?_⟩
      · rintro _ ⟨⟩
      · refine ⟨?_, fun h => absurd h hopen⟩
        rintro ⟨_, ⟨⟩, h⟩
        exact absurd h (Failure.not_isRefusal_quotaExceeded _ _)
      · rintro _ ⟨⟩
        exact ⟨hwithin, fun _ => ⟨_, rfl, hlt⟩⟩

theorem reached_single : Memory.Reached { tree := .file ['a'] ['x'] .empty, quota := 10 } :=
  (Memory.Reached.fresh 10).call (w := .ofMemory { quota := 10 } {} {}) (.createFile ['a'] ['x'])
    rfl rfl

/-- A copy into a missing directory makes the directory and keeps the file. -/
theorem refines_pathMap_copy :
    ∃ m', ((copy ['a'] ['b', '/', 'c']).run.outcome
        (.ofMemory { tree := .file ['a'] ['x'] .empty, quota := 10 } {} {})).2.backing = .memory m'
      ∧ m'.pathMap [['a']] = some (.file ['x']) ∧ m'.pathMap [['b']] = some .directory
      ∧ m'.pathMap [['b'], ['c']] = some (.file ['x']) := by
  obtain ⟨m', hback, _, _, _, hok, _⟩ :=
    refines_pathMap (copy ['a'] ['b', '/', 'c']) reached_single
      (w := .ofMemory { tree := .file ['a'] ['x'] .empty, quota := 10 } {} {}) rfl rfl
  obtain ⟨hmap, _⟩ := hok none rfl
  exact ⟨m', hback, by rw [hmap]; rfl, by rw [hmap]; rfl, by rw [hmap]; rfl⟩

end Call

end PipeShell
