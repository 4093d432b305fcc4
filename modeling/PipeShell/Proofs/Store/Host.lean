import PipeShell.Proofs.Disk.Tidy
import PipeShell.Proofs.Path.Resolve
import PipeShell.Store.Host

/-!
# The store on disk

The operations of a store on disk at a path of admitted names keep the disk tidy, and they fail with
that path or with a path above it.
-/

namespace PipeShell

/-- The entry has an admitted name, if any, and its path consists of admitted names. -/
structure StoreEntry.Admitted (admits : Text → Prop) (e : StoreEntry) : Prop where
  name : e.name ≠ [] → admits e.name
  path : ∃ names, (∀ s ∈ names, admits s) ∧ e.path = Path.ofSegments names

theorem StoreEntry.admits_getLastD {admits : Text → Prop} {names : List Text}
    (h : ∀ s ∈ names, admits s) (hne : names.getLastD [] ≠ []) : admits (names.getLastD []) := by
  rw [List.getLastD_eq_getLast?] at hne ⊢
  cases hl : names.getLast? with
  | none => simp [hl] at hne
  | some name => exact h name (List.mem_of_getLast? hl)

namespace Host

open PipeShell.Action Disk Failure

variable {admits : Text → Prop} {I : Disk → Prop} {h : Host} {path : Text}

/-! ## Places -/

theorem target_gives (hr : ∀ s ∈ h.root, admits s) (hp : ∀ s ∈ Path.segments path, admits s) :
    Attempt.Gives (h.target path) (fun place => ∀ s ∈ place, admits s) (Along path) := by
  simp only [target]
  split
  · exact Attempt.gives_error (along_silent rfl)
  · split
    · refine Attempt.gives_ok fun s hs => ?_
      rcases List.mem_append.mp (Path.mem_walk hs).1 with hs | hs
      · exact hr s hs
      · exact hp s hs
    · exact Attempt.gives_error (along_self rfl)

theorem probe_along {d : Disk} {a : Address} :
    Attempt.Gives (d.probe a) (fun n => d.probe a = .ok n) (Along path) :=
  (Disk.probe_gives d a).mono (fun _ h => h) fun _ h => along_silent h

theorem existing_gives (hr : ∀ s ∈ h.root, admits s) (hp : ∀ s ∈ Path.segments path, admits s)
    (d : Disk) :
    Attempt.Gives (h.existing d path)
      (fun found => (∀ s ∈ found.1, admits s)
        ∧ d.probe (.ofSegments found.1) = .ok (some found.2))
      (Along path) := by
  refine (target_gives hr hp).bind fun place hplace => ?_
  refine probe_along.bind fun n hn => ?_
  cases n with
  | some n => exact Attempt.gives_ok ⟨hplace, hn⟩
  | none => exact Attempt.gives_error (along_join rfl)

theorem existingFile_gives (hr : ∀ s ∈ h.root, admits s)
    (hp : ∀ s ∈ Path.segments path, admits s) (d : Disk) :
    Attempt.Gives (h.existingFile d path) (fun found => ∀ s ∈ found.1, admits s)
      (Along path) := by
  refine (existing_gives hr hp d).bind fun found hfound => ?_
  obtain ⟨place, n⟩ := found
  cases n with
  | file bytes => exact Attempt.gives_ok hfound.1
  | folder inside => exact Attempt.gives_error (along_join rfl)

theorem existingDirectory_gives (hr : ∀ s ∈ h.root, admits s)
    (hp : ∀ s ∈ Path.segments path, admits s) (d : Disk) :
    Attempt.Gives (h.existingDirectory d path)
      (fun found => (∀ s ∈ found.1, admits s)
        ∧ d.probe (.ofSegments found.1) = .ok (some (.folder found.2)))
      (Along path) := by
  refine (existing_gives hr hp d).bind fun found hfound => ?_
  obtain ⟨place, n⟩ := found
  cases n with
  | folder inside => exact Attempt.gives_ok hfound
  | file bytes => exact Attempt.gives_error (along_join rfl)

/-! ## Questions -/

theorem read_gives (hr : ∀ s ∈ h.root, admits s) (hp : ∀ s ∈ Path.segments path, admits s)
    (d : Disk) : Attempt.Gives (h.read d path) (fun _ => True) (Along path) := by
  refine (existingFile_gives hr hp d).bind fun found _ => ?_
  exact Attempt.gives_of (fun _ _ => trivial) fun _ hf => along_silent (decode_silent hf)

theorem holds_gives (hr : ∀ s ∈ h.root, admits s) (hp : ∀ s ∈ Path.segments path, admits s)
    (d : Disk) : Attempt.Gives (h.holds d path) (fun _ => True) (Along path) := by
  have hprobe : Attempt.Gives (h.probe d path) (fun _ => True) (Along path) :=
    (target_gives hr hp).bind fun _ _ => probe_along.mono (fun _ _ => trivial) fun _ h => h
  rw [holds]
  split
  · exact Attempt.gives_ok trivial
  · exact Attempt.gives_ok trivial
  · rename_i f _ hf
    exact Attempt.gives_error (hprobe.failed hf)

theorem isDirectory_gives (hr : ∀ s ∈ h.root, admits s)
    (hp : ∀ s ∈ Path.segments path, admits s) (d : Disk) :
    Attempt.Gives (h.isDirectory d path) (fun _ => True) (Along path) := by
  have hprobe : Attempt.Gives (h.probe d path) (fun _ => True) (Along path) :=
    (target_gives hr hp).bind fun _ _ => probe_along.mono (fun _ _ => trivial) fun _ h => h
  rw [isDirectory]
  split
  · exact Attempt.gives_ok trivial
  · exact Attempt.gives_ok trivial
  · exact Attempt.gives_ok trivial
  · rename_i f _ hf
    exact Attempt.gives_error (hprobe.failed hf)

theorem list_gives {here : List Text} (hr : ∀ s ∈ h.root, admits s)
    (hp : ∀ s ∈ Path.segments path, admits s) {d : Disk} (hd : d.Tidy admits here) :
    Attempt.Gives (h.list d path) (fun es => ∀ e ∈ es, e.Admitted admits) (Along path) := by
  refine (existingDirectory_gives hr hp d).bind fun found hfound => ?_
  obtain ⟨place, inside⟩ := found
  obtain ⟨hplace, hprobe⟩ := hfound
  refine Attempt.gives_ok fun e he => ?_
  obtain ⟨⟨below, content⟩, hb, rfl⟩ := List.mem_map.mp he
  have hinside : inside.Tidy admits := hd.probe hprobe
  obtain ⟨names, hbelow, hnames⟩ := hinside.entriesUnder (List.mem_mergeSort.mp hb)
  obtain rfl : below = names := by simpa using hbelow
  refine ⟨StoreEntry.admits_getLastD hnames, place.drop h.root.length ++ below, fun s hs => ?_, rfl⟩
  rcases List.mem_append.mp hs with hs | hs
  · exact hplace s (List.mem_of_mem_drop hs)
  · exact hnames s hs

/-! ## Changes -/

variable (hI : Stable admits I) (hr : ∀ s ∈ h.root, admits s)

theorem reaches_ofSegments {place : List Text} (hp : ∀ s ∈ place, admits s) :
    Reaches admits I (.ofSegments place) := by
  intro d _ s hs _
  exact hp s (by simpa [Address.segmentsFrom, Address.ofSegments] using hs)

include hI hr

theorem yields_write (hp : ∀ s ∈ Path.segments path, admits s) (content : Text) :
    (h.write path content).Yields I (fun _ => True) (Along path) := by
  refine yields_get.bind fun d hd => ?_
  refine (yields_liftM_except (existingFile_gives hr hp d)).bind fun found hfound => ?_
  refine Yields.bind (P := fun _ => True) ?_ fun _ _ => yields_pure trivial
  exact (Disk.yields_writeText hI (reaches_ofSegments hfound)).mono (fun _ h => h)
    fun _ hf => along_silent hf

theorem yields_createDirectory (hp : ∀ s ∈ Path.segments path, admits s) :
    (h.createDirectory path).Yields I (fun _ => True) (Along path) := by
  refine yields_ite (fun _ => yields_throw (along_silent rfl)) fun _ => ?_
  refine (yields_liftM_except (target_gives hr hp)).bind fun place hplace => ?_
  refine Yields.bind (P := fun _ => True) ?_ fun _ _ => yields_pure trivial
  refine (Disk.yields_ensureDirectory hI (reaches_ofSegments hplace)).tryCatch fun f hf => ?_
  split
  · exact yields_throw (along_join rfl)
  · exact yields_throw (along_join rfl)
  · exact yields_throw (along_silent hf)

theorem yields_createFile (hp : ∀ s ∈ Path.segments path, admits s) (content : Text) :
    (h.createFile path content).Yields I (fun _ => True) (Along path) := by
  have habove : ∀ s ∈ Path.segments (Path.parentAndName path).1, admits s := by
    rw [Path.segments_parent]
    exact fun s hs => hp s (List.dropLast_subset _ hs)
  have hput : (do
      let place ← liftM (h.target path)
      let d ← get
      if ← liftM (d.isDirectory (.ofSegments place)) then throw (.isADirectory (Path.join [path]))
      Disk.writeText h.encoding (.ofSegments place) content
      return ⟨(Path.segments path).getLastD [], Path.join [path], false⟩ :
        Action Disk StoreEntry).Yields I (fun _ => True) (Along path) := by
    refine (yields_liftM_except (target_gives hr hp)).bind fun place hplace => ?_
    refine yields_get.bind fun d hd => ?_
    refine (yields_liftM_except (P := fun _ => True) ?_).bind fun b _ => ?_
    · exact (Disk.isDirectory_gives d _).mono (fun _ h => h) fun _ h => along_silent h
    · refine yields_ite (fun _ => yields_throw (along_join rfl)) fun _ => ?_
      refine ((Disk.yields_writeText hI (reaches_ofSegments hplace)).mono (fun _ h => h)
        fun _ hf => along_silent hf).bind fun _ _ => yields_pure trivial
  refine yields_ite (fun _ => yields_throw (along_self rfl)) fun _ => ?_
  refine yields_ite (fun _ => ?_) fun _ => hput
  exact ((yields_createDirectory hI hr habove).mono (fun _ h => h)
    fun _ hf => hf.of_parent).bind fun _ _ => hput

theorem yields_deleteFile (hp : ∀ s ∈ Path.segments path, admits s) :
    (h.deleteFile path).Yields I (fun _ => True) (Along path) := by
  refine yields_get.bind fun d hd => ?_
  refine (yields_liftM_except (existingFile_gives hr hp d)).bind fun found hfound => ?_
  exact yields_modify fun d hd => Disk.erase_stable hI hd hfound

theorem yields_deleteDirectory (hp : ∀ s ∈ Path.segments path, admits s) :
    (h.deleteDirectory path).Yields I (fun _ => True) (Along path) := by
  refine yields_ite (fun _ => yields_throw (along_silent rfl)) fun _ => ?_
  refine yields_get.bind fun d hd => ?_
  refine (yields_liftM_except (existingDirectory_gives hr hp d)).bind fun found hfound => ?_
  exact yields_modify fun d hd => Disk.erase_stable hI hd hfound.1

theorem yields_clear : h.clear.Yields I (fun _ => True) Silent := by
  refine yields_get.bind fun d hd => ?_
  split
  · exact yields_modify fun d hd => Disk.hollow_stable hI hd hr
  · exact yields_throw rfl
  · exact yields_throw rfl

end Host

end PipeShell
