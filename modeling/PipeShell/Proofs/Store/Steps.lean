import PipeShell.Proofs.Store.Calls

/-!
# Steps of a store in memory

Every call of a store, with whatever faults, changes a store in memory step by step. What each step
keeps, every call keeps, and every store that calls lead to has.
-/

namespace PipeShell

open PipeShell.Action

/-- One change of a store in memory. A file that cannot be created may leave directories behind. -/
inductive Memory.Step : Memory → Memory → Prop
  | write {m m' : Memory} {path content : Text} : m.write path content = .ok m' → Step m m'
  | createFile (m : Memory) (path content : Text) : Step m (m.createFile path content).2
  | createDirectory {m m' : Memory} {path : Text} {e : StoreEntry} :
      m.createDirectory path = .ok (e, m') → Step m m'
  | deleteFile {m m' : Memory} {path : Text} : m.deleteFile path = .ok m' → Step m m'
  | deleteDirectory {m m' : Memory} {path : Text} : m.deleteDirectory path = .ok m' → Step m m'
  | clear (m : Memory) : Step m m.clear

/-- The store is in memory and has `I`. -/
def World.Holding (I : Memory → Prop) (w : World) : Prop :=
  ∃ m, w.backing = .memory m ∧ I m

namespace Store

variable {α : Type} {I : Memory → Prop} {path content source dest : Text}

/-- Whatever it gives, the action leads from a store in memory with `I` to such a store. -/
abbrev Keeps (I : Memory → Prop) (x : Action World α) : Prop :=
  x.Yields (World.Holding I) (fun _ => True) (fun _ => True)

/-! ## Worlds -/

theorem keeps_note (level : LogLevel) (source : LogSource) (message : Text) :
    Keeps I (World.note level source message) :=
  yields_modify fun _ hw => hw

theorem keeps_setMemory (w : World) {m : Memory} (hm : I m) :
    Keeps I (set { w with backing := .memory m } : Action World PUnit) :=
  yields_set ⟨m, rfl, hm⟩

theorem keeps_ask (memory : Memory → Except Failure α) (host : Host → Disk → Except Failure α) :
    Keeps I (World.ask memory host) := by
  refine yields_of_outcome fun w hw => ⟨?_, Attempt.gives_of (fun _ _ => trivial) fun _ _ => trivial⟩
  simp only [outcome, World.ask]
  cases w.backing <;> exact hw

theorem keeps_change {memory : Memory → Except Failure Memory} (host : Host → Action Disk Unit)
    (h : ∀ m m', I m → memory m = .ok m' → I m') : Keeps I (World.change memory host) := by
  refine yields_of_outcome fun w hw => ⟨?_, Attempt.gives_of (fun _ _ => trivial) fun _ _ => trivial⟩
  obtain ⟨m, hb, hm⟩ := hw
  simp only [outcome, World.change, hb]
  cases hr : memory m with
  | error f => exact ⟨m, hb, hm⟩
  | ok m' => exact ⟨m', rfl, h m m' hm hr⟩

/-! ## Operations -/

theorem keeps_read (path : Text) : Keeps I (read path) := by
  refine Yields.bind yields_get fun w _ => ?_
  cases w.faults.brokenReads with
  | none => exact keeps_ask _ _
  | some cause => exact yields_throw trivial

theorem keeps_holds (path : Text) : Keeps I (holds path) :=
  keeps_ask _ _

theorem keeps_isDirectory (path : Text) : Keeps I (isDirectory path) :=
  keeps_ask _ _

theorem keeps_write (hstep : ∀ m m', I m → m.write path content = .ok m' → I m') :
    Keeps I (write path content) := by
  refine yields_get.bind fun w hw => ?_
  refine yields_ite (fun _ => yields_throw trivial) fun _ => ?_
  obtain ⟨m, hb, hm⟩ := hw
  rw [hb]
  have hgives : Attempt.Gives (m.write path content) I (fun _ => True) :=
    Attempt.gives_of (fun m' h => hstep m m' hm h) fun _ _ => trivial
  refine (yields_liftM_except hgives).bind fun m' hm' => ?_
  exact (keeps_setMemory w hm').bind fun _ _ => keeps_note _ _ _

theorem keeps_createFile (hstep : ∀ m, I m → I (m.createFile path content).2) :
    Keeps I (createFile path content) := by
  refine yields_get.bind fun w hw => ?_
  obtain ⟨m, hb, hm⟩ := hw
  rw [hb]
  refine (keeps_setMemory w (hstep m hm)).bind fun _ _ => ?_
  refine (yields_liftM_except (P := fun _ => True) ?_).bind fun e _ => ?_
  · exact Attempt.gives_of (fun _ _ => trivial) fun _ _ => trivial
  · refine yields_ite (fun _ => yields_pure trivial) fun _ => ?_
    exact (keeps_note _ _ _).bind fun _ _ => yields_pure trivial

theorem keeps_createDirectory
    (hstep : ∀ m e m', I m → m.createDirectory path = .ok (e, m') → I m') :
    Keeps I (createDirectory path) := by
  refine yields_get.bind fun w hw => ?_
  obtain ⟨m, hb, hm⟩ := hw
  rw [hb]
  have hgives : Attempt.Gives (m.createDirectory path) (I ·.2) (fun _ => True) :=
    Attempt.gives_of (fun made h => hstep m made.1 made.2 hm h) fun _ _ => trivial
  refine (yields_liftM_except hgives).bind fun made hmade => ?_
  exact (keeps_setMemory w hmade).bind fun _ _ => yields_pure trivial

theorem keeps_deleteFile (hstep : ∀ m m', I m → m.deleteFile path = .ok m' → I m') :
    Keeps I (deleteFile path) := by
  refine yields_get.bind fun w hw => ?_
  refine yields_ite (fun _ => yields_throw trivial) fun _ => ?_
  obtain ⟨m, hb, hm⟩ := hw
  rw [hb]
  have hgives : Attempt.Gives (m.deleteFile path) I (fun _ => True) :=
    Attempt.gives_of (fun m' h => hstep m m' hm h) fun _ _ => trivial
  refine (yields_liftM_except hgives).bind fun m' hm' => ?_
  exact (keeps_setMemory w hm').bind fun _ _ => keeps_note _ _ _

theorem keeps_deleteDirectory (hstep : ∀ m m', I m → m.deleteDirectory path = .ok m' → I m') :
    Keeps I (deleteDirectory path) :=
  keeps_change _ hstep

theorem keeps_clear (hstep : ∀ m : Memory, I m → I m.clear) : Keeps I clear :=
  keeps_change _ fun m m' hm h => by
    obtain rfl : m.clear = m' := by simpa using h
    exact hstep m hm

/-! ## Copies and moves -/

variable (hcreate : ∀ m text, I m → I (m.createFile dest text).2)
include hcreate

theorem keeps_copy : Keeps I (copy source dest) := by
  refine (keeps_isDirectory source).bind fun _ _ => ?_
  refine yields_ite (fun _ => yields_throw trivial) fun _ => ?_
  exact (keeps_read source).bind fun text _ => keeps_createFile fun m hm => hcreate m text hm

variable (hdelete : ∀ m m' path, path = source ∨ path = dest → I m → m.deleteFile path = .ok m' → I m')
  (hwrite : ∀ m m' text, I m → m.write dest text = .ok m' → I m')
include hdelete hwrite

omit hcreate in
theorem keeps_rollBack (former : Option Text) : Keeps I (rollBack dest former) := by
  refine Yields.tryCatch ?_ fun f (_ : True) => ?_
  · cases former with
    | none => exact keeps_deleteFile fun m m' => hdelete m m' dest (.inr rfl)
    | some content => exact keeps_write fun m m' => hwrite m m' content
  · exact yields_ite (fun _ => keeps_note _ _ _) fun _ => yields_throw trivial

theorem keeps_transfer (former : Option Text) : Keeps I (transfer source dest former) := by
  refine (keeps_copy hcreate).bind fun _ _ => ?_
  refine Yields.tryCatch (keeps_deleteFile fun m m' => hdelete m m' source (.inl rfl)) fun f _ => ?_
  refine yields_ite (fun _ => ?_) fun _ => yields_throw trivial
  exact (keeps_rollBack hdelete hwrite former).bind fun _ _ => yields_throw trivial

theorem keeps_move : Keeps I (move source dest) :=
  yields_move_of trivial (fun _ => trivial) (keeps_isDirectory source) (keeps_holds dest)
    (fun _ => keeps_isDirectory dest) (fun _ => keeps_read dest)
    (keeps_transfer hcreate hdelete hwrite)

end Store

/-! ## Calls -/

section

variable {I : Memory → Prop} (hI : ∀ m m', I m → m.Step m' → I m')

include hI

/-- What every step keeps, a call keeps. -/
theorem Call.keeps_run (c : Call) : Store.Keeps I c.run := by
  have any {α : Type} {x : Action World α} {answer : α → Option Text} (h : Store.Keeps I x) :
      Store.Keeps I (answer <$> x) :=
    Yields.map h fun _ _ => trivial
  have hcreate (dest : Text) (m : Memory) (text : Text) (hm : I m) : I (m.createFile dest text).2 :=
    hI m _ hm (.createFile m dest text)
  cases c with
  | read path => exact any (Store.keeps_read path)
  | write path content => exact any (Store.keeps_write fun m m' hm h => hI m m' hm (.write h))
  | createFile path content => exact any (Store.keeps_createFile fun m => hcreate path m content)
  | createDirectory path =>
      exact any (Store.keeps_createDirectory fun m _ m' hm h => hI m m' hm (.createDirectory h))
  | deleteFile path => exact any (Store.keeps_deleteFile fun m m' hm h => hI m m' hm (.deleteFile h))
  | deleteDirectory path =>
      exact any (Store.keeps_deleteDirectory fun m m' hm h => hI m m' hm (.deleteDirectory h))
  | copy source dest => exact any (Store.keeps_copy (hcreate dest))
  | move source dest =>
      exact any (Store.keeps_move (hcreate dest) (fun m m' _ _ hm h => hI m m' hm (.deleteFile h))
        fun m m' _ hm h => hI m m' hm (.write h))
  | clear => exact any (Store.keeps_clear fun m hm => hI m _ hm (.clear m))

/-- What a fresh store has and every step keeps, every store has that calls lead to. -/
theorem Memory.Reached.of_step (hfresh : ∀ quota, I { quota }) {m : Memory} (h : m.Reached) :
    I m := by
  induction h with
  | fresh quota => exact hfresh quota
  | @call m m' w c _ hw hw' ih =>
      obtain ⟨kept, hback, hkept⟩ := (c.keeps_run hI).kept w ⟨m, hw, ih⟩
      obtain rfl : kept = m' := Backing.memory.inj (hback.symm.trans hw')
      exact hkept

end

end PipeShell
