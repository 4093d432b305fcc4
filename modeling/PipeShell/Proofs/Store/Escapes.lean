import PipeShell.Proofs.Disk.Made
import PipeShell.Proofs.Store.Inside

/-!
# Paths that lead out of a store

A path of a store on disk is looked up where its segments lead from the root, each `..` one step
back. One that leads out of the root is refused by every operation, and nothing changes.
-/

namespace PipeShell.Host

open PipeShell.Action

variable {h : Host} {d : Disk} {path : Text} {f : Failure}

/-- The path leads out of the store, where `..` steps back whether there is an entry or not. -/
def Escapes (h : Host) (path : Text) : Prop :=
  ¬h.root <+: Path.walk (h.root ++ Path.segments path)

instance (h : Host) (path : Text) : Decidable (h.Escapes path) :=
  inferInstanceAs (Decidable (¬_))

theorem Escapes.segments_ne (he : h.Escapes path) (hroot : Disk.Below h.root h.root) :
    Path.segments path ≠ [] := by
  intro hnil
  have hwalk : Path.walk (h.root ++ Path.segments path) = h.root := by
    rw [hnil, List.append_nil, Path.walk_of_forward hroot.forward]
  exact he (hwalk.symm ▸ hroot.below)

/-- When the path above stays in the store, the path leads out by one step back from the root. -/
theorem Escapes.above (he : h.Escapes path) {above : Text} {s : Text}
    (hsegments : Path.segments path = Path.segments above ++ [s]) (hstays : ¬h.Escapes above) :
    Path.walk (h.root ++ Path.segments above) = h.root := by
  have hpre : h.root <+: Path.walk (h.root ++ Path.segments above) := not_not.mp hstays
  rw [Escapes, hsegments, ← List.append_assoc, Path.walk_concat] at he
  split at he
  · by_contra hne
    exact he (Folder.prefix_dropLast hpre (Ne.symm hne))
  · exact absurd (hpre.trans (List.prefix_append _ _)) he

theorem target_eq_ite (hnull : ∀ s ∈ Path.segments path, '\x00' ∉ s) :
    h.target path = if h.Escapes path then .error (.escapesRoot path)
      else .ok (Path.walk (h.root ++ Path.segments path)) := by
  have hany : (Path.segments path).any (·.contains '\x00') = false := by simpa using hnull
  simp only [target, hany, Bool.false_eq_true, if_false]
  by_cases he : h.Escapes path
  · rw [if_pos he, if_neg (mt List.isPrefixOf_iff_prefix.mp he)]
  · rw [if_neg he, if_pos (List.isPrefixOf_iff_prefix.mpr (not_not.mp he))]

theorem probe_root (hroot : Disk.Below h.root h.root) (hheld : h.holds d [] = .ok true) :
    ∃ n, d.probe (.ofSegments h.root) = .ok (some n) := by
  have hwalk : Path.walk (h.root ++ Path.segments []) = h.root := by
    rw [Path.segments_nil, List.append_nil, Path.walk_of_forward hroot.forward]
  have hstays : ¬h.Escapes [] := not_not_intro (hwalk.symm ▸ hroot.below)
  rw [holds, probe, target_eq_ite (by simp), if_neg hstays, hwalk, Attempt.ok_bind] at hheld
  cases hn : d.probe (.ofSegments h.root) with
  | ok n =>
      obtain ⟨n, rfl⟩ := Option.isSome_iff_exists.mp (by simpa [hn] using hheld)
      exact ⟨n, rfl⟩
  | error f =>
      rw [hn] at hheld
      cases f <;> cases hheld

/-! ## Questions that fail -/

theorem probe_of_holds (hh : h.holds d path = .error f) : h.probe d path = .error f := by
  rw [holds] at hh
  split at hh
  · cases hh
  · cases hh
  · rename_i hp
    cases hh
    exact hp

theorem probe_of_isDirectory (hi : h.isDirectory d path = .error f) :
    h.probe d path = .error f := by
  rw [isDirectory] at hi
  split at hi
  · cases hi
  · cases hi
  · cases hi
  · rename_i hp
    cases hi
    exact hp

/-- Where the disk refuses to look nothing can be read. -/
theorem read_of_probe (hp : h.probe d path = .error f) : h.read d path = .error f := by
  have hexisting : h.existing d path = .error f := by
    rw [probe] at hp
    rw [existing]
    cases ht : h.target path with
    | error g =>
        rw [ht] at hp
        cases hp
        rfl
    | ok place =>
        rw [ht, Attempt.ok_bind] at hp
        rw [Attempt.ok_bind, hp]
        rfl
  rw [read, existingFile, hexisting]
  rfl

/-! ## Operations on paths that lead out -/

section Escapes

variable (hnull : ∀ s ∈ Path.segments path, '\x00' ∉ s) (he : h.Escapes path)
include hnull he

theorem target_of_escapes : h.target path = .error (.escapesRoot path) := by
  rw [target_eq_ite hnull, if_pos he]

theorem existingFile_of_escapes (d : Disk) :
    h.existingFile d path = .error (.escapesRoot path) := by
  rw [existingFile, existing, target_of_escapes hnull he]
  rfl

theorem existingDirectory_of_escapes (d : Disk) :
    h.existingDirectory d path = .error (.escapesRoot path) := by
  rw [existingDirectory, existing, target_of_escapes hnull he]
  rfl

theorem holds_of_escapes (d : Disk) : h.holds d path = .ok false := by
  rw [holds, probe, target_of_escapes hnull he]
  rfl

theorem isDirectory_of_escapes (d : Disk) : h.isDirectory d path = .ok false := by
  rw [isDirectory, probe, target_of_escapes hnull he]
  rfl

theorem read_of_escapes (d : Disk) : h.read d path = .error (.escapesRoot path) := by
  rw [read, existingFile_of_escapes hnull he]
  rfl

theorem list_of_escapes (d : Disk) : h.list d path = .error (.escapesRoot path) := by
  rw [list, existingDirectory_of_escapes hnull he]
  rfl

theorem outcome_write_of_escapes (content : Text) (d : Disk) :
    (h.write path content).outcome d = (.error (.escapesRoot path), d) := by
  simp only [write, outcome_bind, outcome_get, existingFile_of_escapes hnull he,
    outcome_liftM_except]

theorem outcome_deleteFile_of_escapes (d : Disk) :
    (h.deleteFile path).outcome d = (.error (.escapesRoot path), d) := by
  rw [outcome_deleteFile, existingFile_of_escapes hnull he]

variable (hroot : Disk.Below h.root h.root)
include hroot

theorem outcome_deleteDirectory_of_escapes (d : Disk) :
    (h.deleteDirectory path).outcome d = (.error (.escapesRoot path), d) := by
  rw [outcome_deleteDirectory, if_neg (he.segments_ne hroot),
    existingDirectory_of_escapes hnull he]

theorem outcome_createDirectory_of_escapes (d : Disk) :
    (h.createDirectory path).outcome d = (.error (.escapesRoot path), d) := by
  simp only [createDirectory, if_neg (he.segments_ne hroot), outcome_bind,
    target_of_escapes hnull he, outcome_liftM_except]

/-- When the root is there, nothing is made above a path out of the store. -/
theorem outcome_makeAbove_of_escapes (hheld : h.holds d [] = .ok true) :
    (h.makeAbove path).outcome d = (.ok (), d)
      ∨ ∃ f, (h.makeAbove path).outcome d = (.error f, d) ∧ f.kind = .invalidOperation := by
  by_cases hparent : (Path.parentAndName path).1 = []
  · left
    rw [makeAbove, if_neg (not_not_intro hparent)]
    rfl
  have hsegments := Path.segments_parent path
  have hnull' : ∀ s ∈ Path.segments (Path.parentAndName path).1, '\x00' ∉ s := by
    rw [hsegments]
    exact fun s hs => hnull s (List.dropLast_subset _ hs)
  rw [makeAbove, if_pos hparent, outcome_bind]
  by_cases hout : h.Escapes (Path.parentAndName path).1
  · rw [outcome_createDirectory_of_escapes hnull' hout hroot]
    exact .inr ⟨_, rfl, rfl⟩
  -- Only the last step leads out then, back from the root, so the path above is the root.
  · have hne := he.segments_ne hroot
    have hlast : Path.segments path
        = Path.segments (Path.parentAndName path).1 ++ [(Path.segments path).getLast hne] := by
      rw [hsegments, List.dropLast_concat_getLast]
    have hplace : h.target (Path.parentAndName path).1 = .ok h.root := by
      rw [target_eq_ite hnull', if_neg hout, he.above hlast hout]
    have hne' : Path.segments (Path.parentAndName path).1 ≠ [] := by
      rw [hsegments]
      intro hnil
      exact hparent (congrArg Path.ofSegments hnil)
    obtain ⟨n, hn⟩ := probe_root hroot hheld
    simp only [createDirectory, if_neg hne', outcome_bind, hplace, outcome_liftM_except,
      outcome_tryCatch]
    rcases Disk.outcome_ensureDirectory_of_probe hn with ho | ho
    · rw [ho]
      exact .inl rfl
    · rw [ho]
      exact .inr ⟨_, rfl, rfl⟩

theorem outcome_createFile_of_escapes (hheld : h.holds d [] = .ok true) (content : Text) :
    ∃ f, (h.createFile path content).outcome d = (.error f, d) ∧ f.kind = .invalidOperation := by
  rw [createFile_eq (he.segments_ne hroot), outcome_bind]
  rcases outcome_makeAbove_of_escapes hnull he hroot hheld with ho | ⟨f, ho, hkind⟩
  · rw [ho]
    dsimp only
    rw [putFile, outcome_bind, outcome_liftM_except, target_of_escapes hnull he]
    exact ⟨_, rfl, rfl⟩
  · rw [ho]
    exact ⟨f, rfl, hkind⟩

end Escapes

end PipeShell.Host
