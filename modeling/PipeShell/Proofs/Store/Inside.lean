import PipeShell.Proofs.Disk.Inside
import PipeShell.Proofs.Store.Mirrored
import PipeShell.Proofs.Store.Settled

/-!
# Stores below equal roots

The operations of a store on disk give the same on two disks that hold the same at the root of the
store. They change both in the same way there, and nothing outside of the root on either.
-/

namespace PipeShell

namespace Host

open PipeShell.Action Disk Tie

variable {h : Host} {start start' d d' : Disk} {path content : Text} {place : List Text}

theorem below_of_target (ht : h.target path = .ok place) : Below h.root place := by
  simp only [target] at ht
  split at ht
  · cases ht
  · split at ht
    · rename_i hpre
      cases ht
      exact ⟨List.isPrefixOf_iff_prefix.mp hpre, fun s hs => (Path.mem_walk hs).2⟩
    · cases ht

/-- What exists at a path stands where the path leads. -/
theorem existing_eq_ok {n : Node Bytes} (he : h.existing d path = .ok (place, n)) :
    h.target path = .ok place ∧ d.tree.node? place = some n := by
  rw [existing] at he
  cases ht : h.target path with
  | error f => simp [ht] at he
  | ok found =>
      rw [ht, Attempt.ok_bind] at he
      cases hn : d.probe (.ofSegments found) with
      | error f => simp [hn] at he
      | ok n' =>
          cases n' with
          | none => simp [hn] at he
          | some n' =>
              obtain ⟨rfl, rfl⟩ : found = place ∧ n' = n := by simpa [hn] using he
              exact ⟨rfl, (below_of_target ht).node_of_probe hn⟩

theorem existingFile_eq_ok {bytes : Bytes} (he : h.existingFile d path = .ok (place, bytes)) :
    h.target path = .ok place ∧ d.tree.node? place = some (.file bytes) := by
  rw [existingFile] at he
  cases hn : h.existing d path with
  | error f => simp [hn] at he
  | ok found =>
      obtain ⟨found, n⟩ := found
      cases n with
      | folder inside => simp [hn] at he
      | file content =>
          obtain ⟨rfl, rfl⟩ : found = place ∧ content = bytes := by simpa [hn] using he
          exact existing_eq_ok hn

theorem existingDirectory_eq_ok {inside : Folder Bytes}
    (he : h.existingDirectory d path = .ok (place, inside)) :
    h.target path = .ok place ∧ d.tree.node? place = some (.folder inside) := by
  rw [existingDirectory] at he
  cases hn : h.existing d path with
  | error f => simp [hn] at he
  | ok found =>
      obtain ⟨found, n⟩ := found
      cases n with
      | file content => simp [hn] at he
      | folder below =>
          obtain ⟨rfl, rfl⟩ : found = place ∧ below = inside := by simpa [hn] using he
          exact existing_eq_ok hn

/-! ## Questions -/

section Questions

variable (hs : SameInside h.root d d')
include hs

theorem probe_same (path : Text) : h.probe d path = h.probe d' path := by
  rw [probe, probe]
  cases ht : h.target path with
  | error f => rfl
  | ok place => exact hs.probe_eq (below_of_target ht)

theorem existing_same (path : Text) : h.existing d path = h.existing d' path := by
  rw [existing, existing]
  cases ht : h.target path with
  | error f => rfl
  | ok place => rw [Attempt.ok_bind, Attempt.ok_bind, hs.probe_eq (below_of_target ht)]

theorem existingFile_same (path : Text) : h.existingFile d path = h.existingFile d' path := by
  rw [existingFile, existingFile, existing_same hs]

theorem existingDirectory_same (path : Text) :
    h.existingDirectory d path = h.existingDirectory d' path := by
  rw [existingDirectory, existingDirectory, existing_same hs]

theorem list_same (path : Text) : h.list d path = h.list d' path := by
  rw [list, list, existingDirectory_same hs]

theorem read_same (path : Text) : h.read d path = h.read d' path := by
  rw [read, read, existingFile_same hs]

theorem holds_same (path : Text) : h.holds d path = h.holds d' path := by
  rw [holds, holds, probe_same hs]

theorem isDirectory_same (path : Text) : h.isDirectory d path = h.isDirectory d' path := by
  rw [isDirectory, isDirectory, probe_same hs]

theorem storageInfo_same (hroot : Below h.root h.root) : h.storageInfo d = h.storageInfo d' := by
  rw [storageInfo, storageInfo, hs.node_eq hroot]

end Questions

/-! ## Changes -/

theorem alike_write (path content : Text) :
    (Disk.inside h.root start start').Alike (h.write path content) fun _ => True := by
  refine pairs_get.bind fun d d' hdd' => ?_
  rw [existingFile_same hdd'.1 path]
  refine (alike_liftM (P := fun found => Below h.root found.1)
    fun found hfound => below_of_target (existingFile_eq_ok hfound).1).bind fun found hbelow => ?_
  have hfollows : Follows (Disk.inside h.root start start') _ _ :=
    follows_inside hbelow List.prefix_rfl
  have hwrite := hfollows.alike_writeText h.encoding content
  exact hwrite.bind fun _ _ => alike_pure trivial

theorem alike_createDirectory (path : Text) :
    (Disk.inside h.root start start').Alike (h.createDirectory path) fun _ => True := by
  refine alike_ite (fun _ => alike_throw _) fun _ => ?_
  refine (alike_liftM (P := Below h.root) fun place => below_of_target).bind fun place hplace => ?_
  refine Alike.bind (P := fun _ => True) ?_ fun _ _ => alike_pure trivial
  refine Alike.tryCatch not_false (fun _ => not_false) (alike_ensureDirectory_inside hplace)
    fun f => ?_
  split <;> exact alike_throw _

theorem alike_makeAbove (path : Text) :
    (Disk.inside h.root start start').Alike (h.makeAbove path) fun _ => True := by
  refine alike_ite (fun _ => ?_) fun _ => alike_pure trivial
  exact (alike_createDirectory _).bind fun _ _ => alike_pure trivial

theorem alike_putFile (path content : Text) :
    (Disk.inside h.root start start').Alike (h.putFile path content) fun _ => True := by
  refine (alike_liftM (P := Below h.root) fun place => below_of_target).bind fun place hplace => ?_
  refine pairs_get.bind fun d d' hdd' => ?_
  rw [hdd'.1.isDirectory_eq hplace]
  refine (alike_liftM (P := fun _ => True) fun _ _ => trivial).bind fun directory _ => ?_
  refine alike_ite (fun _ => alike_throw _) fun _ => ?_
  exact ((follows_inside hplace List.prefix_rfl).alike_writeText h.encoding content).bind
    fun _ _ => alike_pure trivial

theorem alike_createFile (path content : Text) :
    (Disk.inside h.root start start').Alike (h.createFile path content) fun _ => True := by
  by_cases hne : Path.segments path = []
  · have hname : (Path.parentAndName path).2 = [] := by simp [Path.parentAndName, hne]
    simp only [createFile, if_pos hname]
    exact alike_throw _
  · rw [createFile_eq hne]
    exact (alike_makeAbove path).bind fun _ _ => alike_putFile path content

theorem outcome_deleteFile (path : Text) (d : Disk) :
    (h.deleteFile path).outcome d = match h.existingFile d path with
      | .ok (place, _) => (.ok (), d.erase place)
      | .error f => (.error f, d) := by
  simp only [deleteFile, outcome_bind, outcome_get, outcome_liftM_except]
  cases h.existingFile d path <;> rfl

theorem alike_deleteFile (path : Text) :
    (Disk.inside h.root start start').Alike (h.deleteFile path) fun _ => True := by
  intro d d' hdd'
  rw [outcome_deleteFile, outcome_deleteFile, ← existingFile_same hdd'.1]
  cases he : h.existingFile d path with
  | error f => exact .failed (.inl rfl) hdd'
  | ok found =>
      obtain ⟨htarget, hn⟩ := existingFile_eq_ok he
      refine .gave ⟨rfl, trivial⟩ (states_erase hdd' (below_of_target htarget).below ?_)
      simp [Folder.binding?, hn]

theorem outcome_deleteDirectory (path : Text) (d : Disk) :
    (h.deleteDirectory path).outcome d
      = if Path.segments path = [] then (.error .rootRemoval, d)
        else match h.existingDirectory d path with
          | .ok (place, _) => (.ok (), d.erase place)
          | .error f => (.error f, d) := by
  by_cases hne : Path.segments path = []
  · simp [deleteDirectory, hne]
  · simp only [deleteDirectory, if_neg hne, outcome_bind, outcome_get, outcome_liftM_except]
    cases h.existingDirectory d path <;> rfl

theorem alike_deleteDirectory (path : Text) :
    (Disk.inside h.root start start').Alike (h.deleteDirectory path) fun _ => True := by
  intro d d' hdd'
  rw [outcome_deleteDirectory, outcome_deleteDirectory, ← existingDirectory_same hdd'.1]
  by_cases hne : Path.segments path = []
  · rw [if_pos hne, if_pos hne]
    exact .failed (.inl rfl) hdd'
  rw [if_neg hne, if_neg hne]
  cases he : h.existingDirectory d path with
  | error f => exact .failed (.inl rfl) hdd'
  | ok found =>
      obtain ⟨htarget, hn⟩ := existingDirectory_eq_ok he
      refine .gave ⟨rfl, trivial⟩ (states_erase hdd' (below_of_target htarget).below ?_)
      simp [Folder.binding?, hn]

theorem outcome_clear (d : Disk) :
    h.clear.outcome d = match d.node h.root with
      | .ok (.folder _) => (.ok (), { d with tree := d.tree.hollow h.root })
      | .ok (.file _) => (.error (.disk .notDirectory h.address.toText), d)
      | .error e => (.error (.disk e h.address.toText), d) := by
  simp only [clear, outcome_bind, outcome_get]
  cases d.node h.root with
  | error e => rfl
  | ok n => cases n <;> rfl

theorem alike_clear (hroot : Below h.root h.root) :
    (Disk.inside h.root start start').Alike h.clear fun _ => True := by
  intro d d' hdd'
  rw [outcome_clear, outcome_clear, ← hdd'.1.node_eq hroot]
  cases hn : d.node h.root with
  | error e => exact .failed (.inl rfl) hdd'
  | ok n =>
      cases n with
      | file bytes => exact .failed (.inl rfl) hdd'
      | folder inside =>
          refine .gave ⟨rfl, trivial⟩ (states_hollow hdd' ?_)
          exact Folder.binding?_eq_directory.mpr ⟨inside, hroot.node_of_node hn⟩

end Host

/-! ## Worlds -/

/-- Two worlds that are the same but for their disks, with one store on disk and without faults.
The disks hold the same at the root of the store, and each holds outside of it what another disk
does. -/
def World.inside (h : Host) (start start' : Disk) : Tie World :=
  ⟨fun v w => w = { v with disk := w.disk } ∧ v.backing = .host h ∧ v.faults = {}
    ∧ (Disk.inside h.root start start').states v.disk w.disk, False, fun _ => False⟩

namespace World.Inside

open PipeShell.Action Tie

variable {h : Host} {start start' : Disk} {α : Type} {P : α → Prop} {path source dest : Text}

theorem alike_of_outcome {x y : Action World α}
    (ho : ∀ w : World, w.backing = .host h → w.faults = {} → x.outcome w = y.outcome w)
    (hy : (inside h start start').Alike y P) : (inside h start start').Alike x P := by
  rintro v w ⟨hworld, hback, hfaults, hdisk⟩
  rw [ho v hback hfaults, ho w (by rw [hworld]; exact hback) (by rw [hworld]; exact hfaults)]
  exact hy v w ⟨hworld, hback, hfaults, hdisk⟩

theorem alike_onDisk {y : Action Disk α} (hy : (Disk.inside h.root start start').Alike y P) :
    (inside h start start').Alike (onDisk y) P := by
  rintro v w ⟨hworld, hback, hfaults, hdisk⟩
  obtain ⟨backing, faults, disk, log, clears⟩ := v
  obtain ⟨backing', faults', disk', log', clears'⟩ := w
  cases hworld
  have hends := hy disk disk' hdisk
  rw [Store.outcome_onDisk, Store.outcome_onDisk]
  dsimp only
  generalize y.outcome disk = out at hends
  generalize y.outcome disk' = out' at hends
  cases hends with
  | gave hv hs => exact .gave hv ⟨rfl, hback, hfaults, hs⟩
  | failed hf hs => exact .failed hf ⟨rfl, hback, hfaults, hs⟩
  | excused hf => exact hf.elim

/-- A question whose answer depends on the store alone. -/
theorem alike_question {x : Action World α} {answer : Disk → Except Failure α}
    (ho : ∀ w : World, w.backing = .host h → w.faults = {} → x.outcome w = (answer w.disk, w))
    (hanswer : ∀ d d', Disk.SameInside h.root d d' → answer d = answer d') :
    (inside h start start').Alike x fun _ => True := by
  rintro v w ⟨hworld, hback, hfaults, hdisk⟩
  rw [ho v hback hfaults, ho w (by rw [hworld]; exact hback) (by rw [hworld]; exact hfaults),
    hanswer _ _ hdisk.1]
  cases answer w.disk with
  | ok a => exact .gave ⟨rfl, trivial⟩ ⟨hworld, hback, hfaults, hdisk⟩
  | error f => exact .failed (.inl rfl) ⟨hworld, hback, hfaults, hdisk⟩

theorem alike_note (level : LogLevel) (source : LogSource) (message : Text) :
    (inside h start start').Alike (note level source message) fun _ => True := by
  rintro v w ⟨hworld, hback, hfaults, hdisk⟩
  refine .gave ⟨rfl, trivial⟩ ⟨?_, hback, hfaults, hdisk⟩
  rw [hworld]

/-! ## Questions -/

theorem alike_list (path : Text) :
    (inside h start start').Alike (Store.list path) fun _ => True :=
  alike_question (fun _ hw _ => Store.outcome_list_host hw path)
    fun _ _ hs => Host.list_same hs path

theorem alike_read (path : Text) :
    (inside h start start').Alike (Store.read path) fun _ => True :=
  alike_question (fun _ hw hf => Store.outcome_read_host hw hf path)
    fun _ _ hs => Host.read_same hs path

theorem alike_holds (path : Text) :
    (inside h start start').Alike (Store.holds path) fun _ => True :=
  alike_question (fun _ hw _ => Store.outcome_holds_host hw path)
    fun _ _ hs => Host.holds_same hs path

theorem alike_isDirectory (path : Text) :
    (inside h start start').Alike (Store.isDirectory path) fun _ => True :=
  alike_question (fun _ hw _ => Store.outcome_isDirectory_host hw path)
    fun _ _ hs => Host.isDirectory_same hs path

theorem alike_storageInfo (hroot : Disk.Below h.root h.root) :
    (inside h start start').Alike Store.storageInfo fun _ => True := by
  have ho (w : World) (hw : w.backing = .host h) (hf : w.faults = {}) :
      Store.storageInfo.outcome w = (.ok (some (h.storageInfo w.disk)), w) := by
    simp [Store.storageInfo, outcome_bind, hf, hw]
  have hanswer (d d' : Disk) (hs : Disk.SameInside h.root d d') :
      (.ok (some (h.storageInfo d)) : Except Failure (Option StorageInfo))
        = .ok (some (h.storageInfo d')) := by
    rw [Host.storageInfo_same hs hroot]
  exact alike_question ho hanswer

/-! ## Changes -/

theorem alike_write (path content : Text) :
    (inside h start start').Alike (Store.write path content) fun _ => True :=
  alike_of_outcome (fun _ hw hf => Store.outcome_write_host hw hf path content)
    ((alike_onDisk (Host.alike_write path content)).bind fun _ _ => alike_note _ _ _)

theorem alike_createFile (path content : Text) :
    (inside h start start').Alike (Store.createFile path content) fun _ => True :=
  alike_of_outcome (fun _ hw _ => Store.outcome_createFile_host hw path content)
    (alike_onDisk (Host.alike_createFile path content))

theorem alike_createDirectory (path : Text) :
    (inside h start start').Alike (Store.createDirectory path) fun _ => True :=
  alike_of_outcome (fun _ hw _ => Store.outcome_createDirectory_host hw path)
    (alike_onDisk (Host.alike_createDirectory path))

theorem alike_deleteFile (path : Text) :
    (inside h start start').Alike (Store.deleteFile path) fun _ => True :=
  alike_of_outcome (fun _ hw hf => Store.outcome_deleteFile_host hw hf path)
    (alike_onDisk (Host.alike_deleteFile path))

theorem alike_deleteDirectory (path : Text) :
    (inside h start start').Alike (Store.deleteDirectory path) fun _ => True :=
  alike_of_outcome (fun _ hw _ => Store.outcome_deleteDirectory_host hw path)
    (alike_onDisk (Host.alike_deleteDirectory path))

theorem alike_clear (hroot : Disk.Below h.root h.root) :
    (inside h start start').Alike Store.clear fun _ => True :=
  alike_of_outcome (fun _ hw _ => Store.outcome_clear_host hw)
    (alike_onDisk (Host.alike_clear hroot))

/-! ## Copying and moving -/

theorem alike_copy (source dest : Text) :
    (inside h start start').Alike (Store.copy source dest) fun _ => True :=
  Tie.alike_copy (alike_isDirectory source) (alike_read source)
    fun content _ => alike_createFile dest content

theorem alike_rollBack (dest : Text) (former : Option Text) :
    (inside h start start').Alike (Store.rollBack dest former) fun _ => True := by
  refine Alike.tryCatch not_false (fun _ => not_false) ?_ fun f => ?_
  · cases former with
    | none => exact alike_deleteFile dest
    | some content => exact alike_write dest content
  · exact alike_ite (fun _ => alike_note _ _ _) fun _ => alike_throw f

theorem alike_transfer (source dest : Text) (former : Option Text) :
    (inside h start start').Alike (Store.transfer source dest former) fun _ => True := by
  refine (alike_copy source dest).bind fun _ _ => ?_
  refine Alike.tryCatch not_false (fun _ => not_false) (alike_deleteFile source) fun f => ?_
  refine alike_ite (fun _ => ?_) fun _ => alike_throw f
  exact (alike_rollBack dest former).bind fun _ _ => alike_throw _

theorem alike_move (source dest : Text) :
    (inside h start start').Alike (Store.move source dest) fun _ => True :=
  Store.alike_move_of (alike_isDirectory source) (alike_holds dest) (alike_isDirectory dest)
    (alike_read dest) (alike_transfer source dest)

end World.Inside

end PipeShell
