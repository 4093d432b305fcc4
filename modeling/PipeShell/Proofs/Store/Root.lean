import PipeShell.Proofs.Store.Confined
import PipeShell.Proofs.Store.CopiedBytes

/-!
# The root of a store

A path without segments names the root of a store, and its directory is not deleted. A path whose
segments lead back to the root passes this check, and the root is deleted. No other request does
that.
-/

namespace PipeShell

/-! ## Disks with a root -/

namespace Disk

open PipeShell.Action

/-- There is a directory at the root, and no two entries of a directory share a name. -/
structure Rooted (root : List Text) (d : Disk) : Prop where
  distinct : d.tree.Distinct
  directory : d.tree.binding? root = some .directory

variable {root p : List Text} {d d' : Disk}

theorem Rooted.extends (h : d.Rooted root) (he : Extends d d') : d'.Rooted root :=
  ⟨he.distinct, he.kept root _ h.directory⟩

theorem Rooted.write (h : d.Rooted root) (hdir : d.tree.binding? p.dropLast = some .directory)
    (hfree : d.tree.binding? p ≠ some .directory) (bytes : Bytes) :
    Rooted root { d with tree := d.tree.write p bytes } := by
  have hne : p ≠ [] := by
    rintro rfl
    exact hfree rfl
  refine ⟨Folder.tidy_write h.distinct (fun _ _ => trivial) bytes, ?_⟩
  rw [Folder.binding?_write h.distinct hne hdir hfree, if_neg, h.directory]
  rintro rfl
  exact hfree h.directory

theorem Rooted.erase (h : d.Rooted root) (hp : root <+: p) (hne : p ≠ root)
    (hbound : d.tree.binding? p ≠ none) : (d.erase p).Rooted root := by
  have hpne : p ≠ [] := by
    rintro rfl
    exact hne (List.prefix_nil.mp hp).symm
  refine ⟨Folder.tidy_erase h.distinct fun _ _ => trivial, ?_⟩
  rw [Disk.erase, Folder.binding?_erase h.distinct hpne (Folder.binding?_dropLast hbound), if_neg,
    h.directory]
  exact fun hpre => hne (hpre.eq_of_length_le hp.length_le)

theorem Rooted.hollow (h : d.Rooted root) :
    Rooted root { d with tree := d.tree.hollow root } := by
  refine ⟨Folder.tidy_hollow h.distinct fun _ _ => trivial, ?_⟩
  rw [Folder.binding?_hollow h.distinct h.directory, if_pos List.prefix_rfl, if_pos rfl]

theorem write_eq_error {a : Address} {bytes : Bytes} {f : Failure}
    (h : (Disk.write a bytes).outcome d = (.error f, d')) : d' = d := by
  dsimp only [outcome, Disk.write] at h
  repeat' split at h
  all_goals cases h <;> rfl

variable {α : Type}

theorem gives_anything {r : Except Failure α} :
    Attempt.Gives r (fun _ => True) fun _ => True :=
  Attempt.gives_of (fun _ _ => trivial) fun _ _ => trivial

/-- What runs from disks with a root to such disks. -/
abbrev KeepsRoot (root : List Text) (x : Action Disk α) : Prop :=
  x.Yields (Rooted root) (fun _ => True) fun _ => True

theorem keepsRoot_of_extends {x : Action Disk α}
    (hx : ∀ d, x.Yields (Extends d) (fun _ => True) fun _ => True) : KeepsRoot root x :=
  yields_of_outcome fun d hd =>
    ⟨hd.extends ((hx d).kept d (.refl hd.distinct)), gives_anything⟩

theorem keepsRoot_liftM (r : Except Failure α) : KeepsRoot root (liftM r) :=
  yields_liftM_except gives_anything

theorem keepsRoot_write (a : Address) (bytes : Bytes) : KeepsRoot root (Disk.write a bytes) := by
  refine yields_of_outcome fun d hd => ⟨?_, gives_anything⟩
  generalize ho : (Disk.write a bytes).outcome d = out
  obtain ⟨answer, d'⟩ := out
  cases answer with
  | ok =>
      obtain ⟨rfl, hdir, hfree⟩ := write_eq_ok ho
      exact hd.write hdir hfree bytes
  | error f =>
      obtain rfl : d' = d := write_eq_error ho
      exact hd

theorem keepsRoot_writeText (encoding : Encoding) (a : Address) (t : Text) :
    KeepsRoot root (writeText encoding a t) := by
  rw [writeText]
  split
  · exact keepsRoot_write a _
  · exact (keepsRoot_write a []).bind fun _ _ => yields_throw trivial

end Disk

/-! ## Operations -/

namespace Host

open PipeShell.Action Disk

variable {h : Host} {d : Disk} {path : Text} {place : List Text}

/-- The path has segments, and they lead back to the root of the store. -/
def LeadsBack (h : Host) (path : Text) : Prop :=
  Path.segments path ≠ [] ∧ (∀ s ∈ Path.segments path, '\x00' ∉ s)
    ∧ Path.walk (h.root ++ Path.segments path) = h.root

instance (h : Host) (path : Text) : Decidable (h.LeadsBack path) :=
  inferInstanceAs (Decidable (_ ∧ _ ∧ _))

theorem target_eq_root :
    h.target path = .ok h.root
      ↔ (∀ s ∈ Path.segments path, '\x00' ∉ s)
        ∧ Path.walk (h.root ++ Path.segments path) = h.root := by
  constructor
  · intro ht
    have hnull : ∀ s ∈ Path.segments path, '\x00' ∉ s := by
      by_contra hnull
      have hany : (Path.segments path).any (·.contains '\x00') = true := by simpa using hnull
      simp only [target, hany, if_true] at ht
      cases ht
    rw [target_eq_ite hnull] at ht
    split at ht
    · cases ht
    · exact ⟨hnull, Except.ok.inj ht⟩
  · rintro ⟨hnull, hwalk⟩
    rw [target_eq_ite hnull, hwalk, if_neg]
    rw [Escapes, hwalk]
    exact not_not_intro List.prefix_rfl

theorem keepsRoot_write (path content : Text) : KeepsRoot h.root (h.write path content) := by
  refine yields_get.bind fun d _ => (keepsRoot_liftM _).bind fun found _ => ?_
  exact (keepsRoot_writeText _ _ _).bind fun _ _ => yields_pure trivial

theorem keepsRoot_createDirectory (path : Text) : KeepsRoot h.root (h.createDirectory path) :=
  keepsRoot_of_extends fun _ => yields_createDirectory_extends path

theorem keepsRoot_putFile (path content : Text) : KeepsRoot h.root (h.putFile path content) := by
  refine (keepsRoot_liftM _).bind fun place _ => yields_get.bind fun d _ => ?_
  refine (keepsRoot_liftM _).bind fun directory _ => yields_ite (fun _ => yields_throw trivial)
    fun _ => ?_
  exact (keepsRoot_writeText _ _ _).bind fun _ _ => yields_pure trivial

theorem keepsRoot_createFile (path content : Text) :
    KeepsRoot h.root (h.createFile path content) := by
  by_cases hne : Path.segments path = []
  · have hname : (Path.parentAndName path).2 = [] := by simp [Path.parentAndName, hne]
    simp only [createFile, if_pos hname]
    exact yields_throw trivial
  · rw [createFile_eq hne]
    exact (keepsRoot_of_extends fun _ => yields_makeAbove_extends path).bind fun _ _ =>
      keepsRoot_putFile path content

theorem keepsRoot_deleteFile (path : Text) : KeepsRoot h.root (h.deleteFile path) := by
  refine yields_of_outcome fun d hd => ⟨?_, gives_anything⟩
  rw [outcome_deleteFile]
  cases he : h.existingFile d path with
  | error f => exact hd
  | ok found =>
      obtain ⟨htarget, hn⟩ := existingFile_eq_ok he
      have hfile := Folder.binding?_eq_file.mpr hn
      refine hd.erase (below_of_target htarget).below (fun heq => ?_) (by simp [hfile])
      rw [heq, hd.directory] at hfile
      cases hfile

/-- A path that does not lead back to the root deletes nothing, or a directory strictly below. -/
theorem outcome_deleteDirectory_below (hback : ¬h.LeadsBack path) (d : Disk) :
    (∃ f, (h.deleteDirectory path).outcome d = (.error f, d))
      ∨ ∃ place, h.root <+: place ∧ place ≠ h.root ∧ d.tree.binding? place = some .directory
        ∧ (h.deleteDirectory path).outcome d = (.ok (), d.erase place) := by
  rw [outcome_deleteDirectory]
  by_cases hsegments : Path.segments path = []
  · rw [if_pos hsegments]
    exact .inl ⟨_, rfl⟩
  rw [if_neg hsegments]
  cases he : h.existingDirectory d path with
  | error f => exact .inl ⟨f, rfl⟩
  | ok found =>
      obtain ⟨place, inside⟩ := found
      obtain ⟨htarget, hn⟩ := existingDirectory_eq_ok he
      refine .inr ⟨place, (below_of_target htarget).below, ?_,
        Folder.binding?_eq_directory.mpr ⟨inside, hn⟩, rfl⟩
      rintro rfl
      exact hback ⟨hsegments, target_eq_root.mp htarget⟩

theorem keepsRoot_deleteDirectory (hback : ¬h.LeadsBack path) :
    KeepsRoot h.root (h.deleteDirectory path) := by
  refine yields_of_outcome fun d hd => ⟨?_, gives_anything⟩
  obtain ⟨f, ho⟩ | ⟨place, hbelow, hne, hdir, ho⟩ := outcome_deleteDirectory_below hback d
  · rw [ho]
    exact hd
  · rw [ho]
    exact hd.erase hbelow hne (by simp [hdir])

theorem keepsRoot_clear : KeepsRoot h.root h.clear := by
  refine yields_of_outcome fun d hd => ⟨?_, gives_anything⟩
  rw [outcome_clear]
  cases d.node h.root with
  | error e => exact hd
  | ok n =>
      cases n with
      | file bytes => exact hd
      | folder inside => exact hd.hollow

end Host

/-! ## The directory at the root -/

namespace Host

open Disk

variable {h : Host} {d d' : Disk} {path : Text}

theorem isDirectory_iff :
    h.isDirectory d path = .ok true
      ↔ ∃ place, h.target path = .ok place ∧ d.isDirectory (.ofSegments place) = .ok true := by
  rw [isDirectory, probe]
  cases h.target path with
  | error f => cases f <;> simp
  | ok place =>
      simp only [Attempt.ok_bind, Except.ok.injEq, exists_eq_left', Disk.isDirectory_iff]
      cases d.probe (.ofSegments place) with
      | error f => cases f <;> simp
      | ok n => rcases n with - | (bytes | inside) <;> simp

variable (hroot : Below h.root h.root)
include hroot

theorem isDirectory_root :
    h.isDirectory d [] = .ok true ↔ d.isDirectory (.ofSegments h.root) = .ok true := by
  have htarget : h.target [] = .ok h.root := by
    refine target_eq_root.mpr ⟨by simp, ?_⟩
    rw [Path.segments_nil, List.append_nil, Path.walk_of_forward hroot.forward]
  simp [isDirectory_iff, htarget]

theorem binding_root (hheld : h.isDirectory d [] = .ok true) :
    d.tree.binding? h.root = some .directory := by
  have hdir := binding_of_isDirectory ((isDirectory_root hroot).mp hheld)
  rwa [segmentsFrom_ofSegments, Path.walk_of_forward hroot.forward] at hdir

/-- A root that can be reached stays in reach while there is a directory. -/
theorem isDirectory_root_kept (hheld : h.isDirectory d [] = .ok true)
    (hlong : d.longestName = d'.longestName) (hdir : d'.tree.binding? h.root = some .directory) :
    h.isDirectory d' [] = .ok true := by
  have hagree : Agree d d' h.root := by
    refine ⟨hlong, fun p hp => ?_⟩
    rw [Path.walk_of_forward fun s hs => hroot.forward s (hp.subset hs)]
    refine sameNode_of_binding ?_
    rw [Folder.directory_above (binding_root hroot hheld) hp, Folder.directory_above hdir hp]
  have hsame : d.isDirectory (.ofSegments h.root) = d'.isDirectory (.ofSegments h.root) :=
    hagree.isDirectory rfl rfl
  rw [isDirectory_root hroot] at hheld ⊢
  rw [← hsame, hheld]

end Host

/-! ## Requests -/

/-- The world has this store on disk, without faults, and the root of the store is there. -/
structure World.Rooted (h : Host) (w : World) : Prop where
  backing : w.backing = .host h
  faults : w.faults = {}
  disk : w.disk.Rooted h.root

namespace Store

open PipeShell.Action Disk

variable {h : Host} {α : Type} {path content source dest : Text}

abbrev KeepsRoot (h : Host) (x : Action World α) : Prop :=
  x.Yields (World.Rooted h) (fun _ => True) fun _ => True

theorem keepsRoot_of_outcome {x y : Action World α} (hy : KeepsRoot h y)
    (ho : ∀ w : World, w.backing = .host h → w.faults = {} → x.outcome w = y.outcome w) :
    KeepsRoot h x := by
  refine yields_of_outcome fun w hw => ⟨?_, gives_anything⟩
  rw [ho w hw.backing hw.faults]
  exact hy.kept w hw

theorem keepsRoot_onDisk {y : Action Disk α} (hy : Disk.KeepsRoot h.root y) :
    KeepsRoot h (World.onDisk y) :=
  yields_of_outcome fun w hw =>
    ⟨⟨hw.backing, hw.faults, hy.kept w.disk hw.disk⟩, gives_anything⟩

theorem keepsRoot_question {x : Action World α} (answer : Disk → Except Failure α)
    (ho : ∀ w : World, w.backing = .host h → w.faults = {} → x.outcome w = (answer w.disk, w)) :
    KeepsRoot h x := by
  refine yields_of_outcome fun w hw => ⟨?_, gives_anything⟩
  rw [ho w hw.backing hw.faults]
  exact hw

theorem keepsRoot_note (level : LogLevel) (source : LogSource) (message : Text) :
    KeepsRoot h (World.note level source message) :=
  yields_modify fun _ hw => ⟨hw.backing, hw.faults, hw.disk⟩

theorem keepsRoot_read (path : Text) : KeepsRoot h (read path) :=
  keepsRoot_question (h.read · path) fun _ hw hf => outcome_read_host hw hf path

theorem keepsRoot_holds (path : Text) : KeepsRoot h (holds path) :=
  keepsRoot_question (h.holds · path) fun _ hw _ => outcome_holds_host hw path

theorem keepsRoot_isDirectory (path : Text) : KeepsRoot h (isDirectory path) :=
  keepsRoot_question (h.isDirectory · path) fun _ hw _ => outcome_isDirectory_host hw path

theorem keepsRoot_storageInfo : KeepsRoot h storageInfo :=
  keepsRoot_question (fun d => .ok (some (h.storageInfo d))) fun w hw hf => by
    simp [storageInfo, outcome_bind, hf, hw]

theorem keepsRoot_write (path content : Text) : KeepsRoot h (write path content) :=
  keepsRoot_of_outcome
    ((keepsRoot_onDisk (Host.keepsRoot_write path content)).bind fun _ _ => keepsRoot_note _ _ _)
    fun _ hw hf => outcome_write_host hw hf path content

theorem keepsRoot_createFile (path content : Text) : KeepsRoot h (createFile path content) :=
  keepsRoot_of_outcome (keepsRoot_onDisk (Host.keepsRoot_createFile path content))
    fun _ hw _ => outcome_createFile_host hw path content

theorem keepsRoot_deleteFile (path : Text) : KeepsRoot h (deleteFile path) :=
  keepsRoot_of_outcome (keepsRoot_onDisk (Host.keepsRoot_deleteFile path))
    fun _ hw hf => outcome_deleteFile_host hw hf path

theorem keepsRoot_copy (source dest : Text) : KeepsRoot h (copy source dest) := by
  refine (keepsRoot_isDirectory source).bind fun found _ => ?_
  refine yields_ite (fun _ => yields_throw trivial) fun _ => ?_
  exact (keepsRoot_read source).bind fun content _ => keepsRoot_createFile dest content

theorem keepsRoot_rollBack (dest : Text) (former : Option Text) :
    KeepsRoot h (rollBack dest former) := by
  refine Yields.tryCatch (?_ : KeepsRoot h _) fun f _ => ?_
  · cases former with
    | none => exact keepsRoot_deleteFile dest
    | some content => exact keepsRoot_write dest content
  · exact yields_ite (fun _ => keepsRoot_note _ _ _) fun _ => yields_throw trivial

theorem keepsRoot_move (source dest : Text) : KeepsRoot h (move source dest) := by
  refine yields_move_of (Q := fun _ => True) trivial (fun _ => trivial)
    (keepsRoot_isDirectory source) (keepsRoot_holds dest) (fun _ => keepsRoot_isDirectory dest)
    (fun _ => keepsRoot_read dest) fun former => (keepsRoot_copy source dest).bind fun _ _ => ?_
  refine (keepsRoot_deleteFile source).tryCatch fun f _ => yields_ite (fun _ => ?_) fun _ =>
    yields_throw trivial
  exact (keepsRoot_rollBack dest former).bind fun _ _ => yields_throw trivial

end Store

namespace Request

open PipeShell.Action

variable {h : Host}

/-- The request deletes a directory by a path that leads back to the root. -/
def DeletesRoot (h : Host) (r : Request) : Prop :=
  ∃ path, r = .deleteDirectory path ∧ h.LeadsBack path

theorem keepsRoot_run (r : Request) (hr : ¬r.DeletesRoot h) : Store.KeepsRoot h r.run := by
  have answered {α : Type} {x : Action World α} {answer : α → Answer} (hx : Store.KeepsRoot h x) :
      Store.KeepsRoot h (answer <$> x) :=
    hx.map fun _ _ => trivial
  cases r with
  | list path =>
      exact answered (Store.keepsRoot_question (h.list · path)
        fun _ hw _ => Store.outcome_list_host hw path)
  | read path => exact answered (Store.keepsRoot_read path)
  | holds path => exact answered (Store.keepsRoot_holds path)
  | isDirectory path => exact answered (Store.keepsRoot_isDirectory path)
  | storageInfo => exact answered Store.keepsRoot_storageInfo
  | write path content => exact answered (Store.keepsRoot_write path content)
  | createFile path content => exact answered (Store.keepsRoot_createFile path content)
  | createDirectory path =>
      exact answered (Store.keepsRoot_of_outcome
        (Store.keepsRoot_onDisk (Host.keepsRoot_createDirectory path))
        fun _ hw _ => Store.outcome_createDirectory_host hw path)
  | deleteFile path => exact answered (Store.keepsRoot_deleteFile path)
  | deleteDirectory path =>
      exact answered (Store.keepsRoot_of_outcome
        (Store.keepsRoot_onDisk (Host.keepsRoot_deleteDirectory fun hback => hr ⟨path, rfl, hback⟩))
        fun _ hw _ => Store.outcome_deleteDirectory_host hw path)
  | copy source dest => exact answered (Store.keepsRoot_copy source dest)
  | move source dest => exact answered (Store.keepsRoot_move source dest)
  | clear =>
      exact answered (Store.keepsRoot_of_outcome (Store.keepsRoot_onDisk Host.keepsRoot_clear)
        fun _ hw _ => Store.outcome_clear_host hw)

theorem rooted_runAll {requests : List Request} (hr : ∀ r ∈ requests, ¬r.DeletesRoot h) {w : World}
    (hw : w.Rooted h) : (runAll requests w).2.Rooted h := by
  induction requests generalizing w with
  | nil => exact hw
  | cons r rest ih =>
      obtain ⟨hfirst, hrest⟩ := List.forall_mem_cons.mp hr
      exact ih hrest ((keepsRoot_run r hfirst).kept w hw)

/-- What requests leave as it was, even where the root is deleted. -/
theorem runAll_keeps (hroot : Disk.Below h.root h.root) {w : World} (hw : w.Rooted h)
    (requests : List Request) :
    (runAll requests w).2.backing = .host h ∧ (runAll requests w).2.disk.tree.Distinct
      ∧ (runAll requests w).2.disk.longestName = w.disk.longestName := by
  have hsame := Disk.sameInside_self hw.disk.distinct hw.disk.directory
  have hstates : (World.inside h w.disk w.disk).states w w :=
    ⟨rfl, hw.backing, hw.faults, hsame, .refl _ _, .refl _ _⟩
  obtain ⟨-, -, hback, -, hafter, hkept, -⟩ := runAll_same hroot requests hstates
  exact ⟨hback, hafter.distinct, by rw [hkept.same]⟩

end Request

/-! ## What a deletion removes -/

namespace Store

open PipeShell.Action Disk

variable {h : Host} {w : World} {path : Text}

/-- The deletion of a directory fails and changes nothing, or it removes one directory strictly
below the root, with all that it holds and nothing else. -/
def DeletesBelow (h : Host) (w : World) (path : Text) : Prop :=
  (∃ f, (deleteDirectory path).outcome w = (.error f, w))
    ∨ ∃ place tree, h.root <+: place ∧ place ≠ h.root
      ∧ w.disk.tree.binding? place = some .directory
      ∧ (deleteDirectory path).outcome w = (.ok (), { w with disk := { w.disk with tree } })
      ∧ ∀ q, tree.binding? q = if place <+: q then none else w.disk.tree.binding? q

theorem deletesBelow_of_not_leadsBack (hw : w.backing = .host h) (hd : w.disk.tree.Distinct)
    (hback : ¬h.LeadsBack path) : DeletesBelow h w path := by
  rw [DeletesBelow, outcome_deleteDirectory_host hw, outcome_onDisk]
  obtain ⟨f, ho⟩ | ⟨place, hbelow, hne, hdir, ho⟩ :=
    Host.outcome_deleteDirectory_below hback w.disk
  · rw [ho]
    exact .inl ⟨f, rfl⟩
  · rw [ho]
    have hplace : place ≠ [] := by
      rintro rfl
      exact hne (List.prefix_nil.mp hbelow).symm
    refine .inr ⟨place, _, hbelow, hne, hdir, rfl, fun q => ?_⟩
    exact Folder.binding?_erase hd hplace (Folder.binding?_dropLast (by simp [hdir])) q

variable (hw : w.backing = .host h) (hroot : Below h.root h.root)
  (hheld : h.isDirectory w.disk [] = .ok true) (hback : h.LeadsBack path)
include hw hroot hheld hback

theorem outcome_deleteDirectory_root :
    (deleteDirectory path).outcome w = (.ok (), { w with disk := w.disk.erase h.root }) := by
  obtain ⟨hsegments, hleads⟩ := hback
  obtain ⟨inside, hprobe⟩ := Disk.isDirectory_iff.mp ((Host.isDirectory_root hroot).mp hheld)
  have hfound : h.existingDirectory w.disk path = .ok (h.root, inside) := by
    rw [Host.existingDirectory, Host.existing, Host.target_eq_root.mpr hleads, Attempt.ok_bind,
      hprobe]
    rfl
  rw [outcome_deleteDirectory_host hw, outcome_onDisk, Host.outcome_deleteDirectory,
    if_neg hsegments, hfound]

theorem isDirectory_root_deleted (hd : w.disk.tree.Distinct) (hne : h.root ≠ []) :
    h.isDirectory ((deleteDirectory path).outcome w).2.disk [] ≠ .ok true := by
  have hdir := Host.binding_root hroot hheld
  have hgone := Folder.binding?_erase hd hne (Folder.binding?_dropLast (by simp [hdir])) h.root
  rw [if_pos List.prefix_rfl] at hgone
  rw [outcome_deleteDirectory_root hw hroot hheld hback]
  intro hkept
  have hdir' := Host.binding_root hroot hkept
  rw [Disk.erase, hgone] at hdir'
  cases hdir'

end Store

namespace Request

variable {h : Host} {w : World}

/-- While its root is there, a store deletes directories strictly below the root only, except by
paths that lead back to the root, and requests without such a deletion leave the root where it is.
The exception is real: by each such path the root is deleted, unless it is the root of the disk, and
after some of the requests with such a deletion among them the root is not there. -/
theorem root_kept_iff (hw : w.backing = .host h) (hfaults : w.faults = {})
    (hroot : Disk.Below h.root h.root) (hd : w.disk.tree.Distinct)
    (hheld : h.isDirectory w.disk [] = .ok true) :
    (∀ path, ¬h.LeadsBack path → Store.DeletesBelow h w path)
      ∧ (∀ requests : List Request, (∀ r ∈ requests, ¬r.DeletesRoot h) →
        h.isDirectory (runAll requests w).2.disk [] = .ok true)
      ∧ (h.root ≠ [] →
        (∀ path, h.LeadsBack path →
          (Store.deleteDirectory path).outcome w = (.ok (), { w with disk := w.disk.erase h.root })
            ∧ h.isDirectory (w.disk.erase h.root) [] ≠ .ok true)
          ∧ ∀ requests : List Request, (∃ r ∈ requests, r.DeletesRoot h) →
            ∃ before, before <+: requests
              ∧ h.isDirectory (runAll before w).2.disk [] ≠ .ok true) := by
  have hrooted : w.Rooted h := ⟨hw, hfaults, hd, Host.binding_root hroot hheld⟩
  refine ⟨fun path => Store.deletesBelow_of_not_leadsBack hw hd, fun requests hr => ?_,
    fun hne => ⟨fun path hback => ?_, fun requests hr => ?_⟩⟩
  · obtain ⟨-, -, hlong⟩ := runAll_keeps hroot hrooted requests
    have hdir := (rooted_runAll hr hrooted).disk.directory
    exact Host.isDirectory_root_kept hroot hheld hlong.symm hdir
  · have ho := Store.outcome_deleteDirectory_root hw hroot hheld hback
    have hgone := Store.isDirectory_root_deleted hw hroot hheld hback hd hne
    rw [ho] at hgone
    exact ⟨ho, hgone⟩
  · obtain ⟨r, hmem, path, rfl, hback⟩ := hr
    obtain ⟨before, rest, rfl⟩ := List.append_of_mem hmem
    -- Either the root is gone before this deletion or it is gone after it.
    by_cases hthere : h.isDirectory (runAll before w).2.disk [] = .ok true
    · obtain ⟨hw', hd', -⟩ := runAll_keeps hroot hrooted before
      refine ⟨before ++ [.deleteDirectory path], ⟨rest, by simp⟩, ?_⟩
      rw [runAll_append]
      have hgone := Store.isDirectory_root_deleted hw' hroot hthere hback hd' hne
      simpa [runAll, run, Action.outcome_map] using hgone
    · exact ⟨before, List.prefix_append _ _, hthere⟩

/-- A path that steps back from a directory and on to another one does not lead back, though the
first is missing; `x/..` does, and deletes the root with the file in it. -/
theorem root_kept_beside :
    let h : Host := ⟨.ofSegments ["s"], ["s"], .utf8, 0⟩
    let made : List Request :=
      [.createDirectory "d/e", .deleteDirectory "x/../d/./e", .deleteDirectory "f/..//", .clear]
    Store.DeletesBelow h (beside "secret") "../s/f"
      ∧ h.isDirectory (runAll (made.take 2) (beside "secret")).2.disk [] = .ok true
      ∧ (Store.deleteDirectory "x/..").outcome (beside "secret")
        = (.ok (), { beside "secret" with disk := (neighbours "secret").erase ["s"] })
      ∧ ∃ before, before <+: made
        ∧ h.isDirectory (runAll before (beside "secret")).2.disk [] ≠ .ok true := by
  intro h made
  have hroot : Disk.Below h.root h.root := ⟨List.prefix_rfl, by decide⟩
  obtain ⟨hbelow, hkept, hdeleted⟩ := root_kept_iff (w := beside "secret") (h := h) rfl rfl hroot
    (distinct_neighbours "secret") rfl
  obtain ⟨hgone, hsome⟩ := hdeleted (by decide)
  refine ⟨hbelow "../s/f" (by decide), hkept _ ?_, (hgone "x/.." (by decide)).1, hsome made ?_⟩
  · rintro r hr ⟨path, rfl, hback⟩
    obtain rfl : path = "x/../d/./e" := by simpa [made] using hr
    exact absurd hback (by decide)
  · exact ⟨_, by simp [made], "f/..//", rfl, by decide⟩

/-- The root is deleted by a path with segments, which step back to it. -/
theorem root_deleted :
    ∃ (h : Host) (w : World), w.backing = .host h ∧ w.faults = {} ∧ Disk.Below h.root h.root
      ∧ w.disk.tree.Distinct ∧ h.isDirectory w.disk [] = .ok true
      ∧ ¬Store.DeletesBelow h w "a/.."
      ∧ runAll [.deleteDirectory "a/..", .isDirectory ""] w
        = ([.ok .done, .ok (.flag false)], { w with disk := w.disk.erase h.root }) := by
  refine ⟨⟨.ofSegments ["s"], ["s"], .utf8, 0⟩, beside "secret", rfl, rfl,
    ⟨List.prefix_rfl, by decide⟩, distinct_neighbours "secret", rfl, ?_, rfl⟩
  rintro (⟨f, ho⟩ | ⟨place, tree, hbelow, hne, -, ho, hgone⟩)
  · cases ho
  · have hroot := hgone ["s"]
    rw [if_neg fun hpre => hne (hpre.eq_of_length_le hbelow.length_le)] at hroot
    cases ho
    cases hroot

end Request

end PipeShell
