import PipeShell.Proofs.Store.Mirror
import PipeShell.Store.Basic

/-!
# Operations on a mirrored store

How the operations of a store end when it is on disk, mirrors a map of paths and has no faults. Apart
from the disk and the log they leave the world as it is.
-/

namespace PipeShell

/-- The world with another disk and more records. -/
def World.landed (w : World) (d : Disk) (records : List LogRecord) : World :=
  { w with disk := d, log := w.log ++ records }

namespace Store

open PipeShell.Action

variable {α : Type} {w : World} {h : Host} {m : PathMap} {path : Text}

/-- The operation ends as the map that the store mirrors says, and does no more to the world than to
change the disk and to add to the log. -/
def Lands (w : World) (h : Host) (m : PathMap) (refused : Prop) (update : PathMap)
    (answer : α → Prop) (x : Action World α) : Prop :=
  ∃ d records, (x.outcome w).2 = w.landed d records
    ∧ h.Ends w.disk m refused update answer ((x.outcome w).1, d)

/-! ## Questions -/

section Questions

variable (hw : w.backing = .host h)
include hw

theorem outcome_list_host (path : Text) : (list path).outcome w = (h.list w.disk path, w) := by
  simp [list, World.ask, outcome, hw]

theorem outcome_holds_host (path : Text) : (holds path).outcome w = (h.holds w.disk path, w) := by
  simp [holds, World.ask, outcome, hw]

theorem outcome_isDirectory_host (path : Text) :
    (isDirectory path).outcome w = (h.isDirectory w.disk path, w) := by
  simp [isDirectory, World.ask, outcome, hw]

theorem outcome_read_host (hfaults : w.faults = {}) (path : Text) :
    (read path).outcome w = (h.read w.disk path, w) := by
  simp only [read, outcome_bind, outcome_get, hfaults]
  simp [World.ask, outcome, hw]

end Questions

/-! ## Changes -/

theorem outcome_onDisk (y : Action Disk α) :
    (World.onDisk y).outcome w = ((y.outcome w.disk).1, { w with disk := (y.outcome w.disk).2 }) :=
  rfl

theorem lands_onDisk {refused : Prop} {update : PathMap} {answer : α → Prop} {x : Action World α}
    {y : Action Disk α} (ho : x.outcome w = (World.onDisk y).outcome w)
    (hends : h.Ends w.disk m refused update answer (y.outcome w.disk)) :
    Lands w h m refused update answer x := by
  refine ⟨(y.outcome w.disk).2, [], ?_, ?_⟩
  · rw [ho, World.landed, List.append_nil]
    rfl
  · rw [ho]
    exact hends

section Host

variable (hw : w.backing = .host h)
include hw

theorem outcome_clear_host : clear.outcome w = (World.onDisk h.clear).outcome w := by
  simp [clear, World.change, outcome, hw]

theorem outcome_createFile_host (path content : Text) :
    (createFile path content).outcome w = (World.onDisk (h.createFile path content)).outcome w := by
  simp only [createFile, outcome_bind, outcome_get, hw]

theorem outcome_createDirectory_host (path : Text) :
    (createDirectory path).outcome w = (World.onDisk (h.createDirectory path)).outcome w := by
  simp only [createDirectory, outcome_bind, outcome_get, hw]

theorem outcome_deleteDirectory_host (path : Text) :
    (deleteDirectory path).outcome w = (World.onDisk (h.deleteDirectory path)).outcome w := by
  simp [deleteDirectory, World.change, outcome, hw]

variable (hfaults : w.faults = {})
include hfaults

theorem outcome_deleteFile_host (path : Text) :
    (deleteFile path).outcome w = (World.onDisk (h.deleteFile path)).outcome w := by
  simp only [deleteFile, outcome_bind, outcome_get, outcome_ite, hfaults, hw]
  rfl

theorem outcome_write_host (path content : Text) :
    (write path content).outcome w
      = (do
          let place ← World.onDisk (h.write path content)
          noteWritten content (Address.ofSegments place).toText : Action World Unit).outcome w := by
  obtain ⟨backing, faults, disk, log, clears⟩ := w
  obtain rfl : backing = .host h := hw
  obtain rfl : faults = {} := hfaults
  rw [write, outcome_bind, outcome_get]
  rfl

end Host

variable (hf : h.Fits w.disk) (hm : h.Mirrors w.disk m) (hc : m.PrefixClosed)
  (hw : w.backing = .host h)
include hf hm hc hw

theorem lands_clear : Lands w h m False PathMap.bare (fun _ => True) clear :=
  lands_onDisk (outcome_clear_host hw) (Host.ends_clear hf hm hc)

variable (hp : Disk.Plain (Path.segments path))
include hp

theorem lands_createFile (content : Text) :
    Lands w h m (m.Closed (Path.segments path)) (m.create (Path.segments path) content)
      (· = Memory.entry (Path.segments path) false) (createFile path content) :=
  lands_onDisk (outcome_createFile_host hw path content) (Host.ends_createFile hf hp hm hc content)

theorem lands_createDirectory :
    Lands w h m (Path.segments path = [] ∨ m.Blocked (Path.segments path))
      (m.makeDirectories (Path.segments path)) (· = Memory.entry (Path.segments path) true)
      (createDirectory path) :=
  lands_onDisk (outcome_createDirectory_host hw path) (Host.ends_createDirectory hf hp hm hc)

theorem lands_deleteDirectory :
    Lands w h m (Path.segments path = [] ∨ m (Path.segments path) ≠ some .directory)
      (m.unbindBelow (Path.segments path)) (fun _ => True) (deleteDirectory path) :=
  lands_onDisk (outcome_deleteDirectory_host hw path) (Host.ends_deleteDirectory hf hp hm hc)

variable (hfaults : w.faults = {})
include hfaults

theorem lands_deleteFile :
    Lands w h m (¬m.IsFile (Path.segments path)) (m.unbind (Path.segments path)) (fun _ => True)
      (deleteFile path) :=
  lands_onDisk (outcome_deleteFile_host hw hfaults path) (Host.ends_deleteFile hf hp hm hc)

theorem lands_write (content : Text) :
    Lands w h m (¬m.IsFile (Path.segments path)) (m.bindFile (Path.segments path) content)
      (fun _ => True) (write path content) := by
  have hends := Host.ends_write hf hp hm hc content
  have ho := outcome_write_host hw hfaults path content
  rw [outcome_bind, outcome_onDisk] at ho
  generalize (h.write path content).outcome w.disk = out at hends ho
  cases hends with
  | done hfile _ hbecomes => exact ⟨_, _, by rw [ho]; rfl, by rw [ho]; exact .done hfile trivial hbecomes⟩
  | refused hfile hbecomes =>
      refine ⟨_, [], ?_, by rw [ho]; exact .refused hfile hbecomes⟩
      rw [ho, World.landed, List.append_nil]

end Store

end PipeShell
