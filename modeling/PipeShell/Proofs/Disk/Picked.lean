import PipeShell.Disk.Picker
import PipeShell.Proofs.Store.Tidy

/-!
# Picked and saved files

A file that is picked has a name that can stand in a path of a store, because a walk that ends with
`..` leads to a directory. A file that is saved goes to a tidy place.
-/

namespace PipeShell

open PipeShell.Action PipeShell.Path

variable {here : List Text}

/-! ## Addresses -/

namespace Address

variable {a b : Address}

/-- The parts of the address are segments. -/
def Proper (a : Address) : Prop :=
  ∀ s ∈ a.parts, IsSegment s

instance (a : Address) : Decidable a.Proper :=
  inferInstanceAs (Decidable (∀ s ∈ a.parts, IsSegment s))

theorem proper_ofText (t : Text) : (ofText t).Proper :=
  isSegment_segments t

theorem Proper.append (ha : a.Proper) (hb : b.Proper) : (a.append b).Proper := by
  rw [Address.append]
  split
  · intro s hs
    exact (List.mem_append.mp hs).elim (ha s) (hb s)
  · exact hb

theorem Proper.expandHome (ha : a.Proper) (homes : Homes) :
    Attempt.Gives (a.expandHome homes) Proper Failure.Silent := by
  rw [Address.expandHome]
  split
  · rename_i rest _ hparts
    split
    · refine Attempt.gives_ok fun s hs => ?_
      rcases List.mem_append.mp hs with hs | hs
      · exact proper_ofText _ s hs
      · exact ha s (by rw [hparts]; simp [hs])
    · exact Attempt.gives_error rfl
  · exact Attempt.gives_ok ha

theorem Proper.isName_name (ha : a.Proper) (hback : a.name ≠ ['.', '.']) :
    Forward a.name := by
  cases hl : a.parts.getLast? with
  | none => simp [Forward, name, List.getLast?_eq_none_iff.mp hl]
  | some t =>
      obtain rfl : a.name = t := by simp [name, List.getLastD_eq_getLast?, hl]
      have hs := ha a.name (List.mem_of_getLast? hl)
      rw [Forward, segments_of_isSegment hs]
      simpa using ⟨hs, hback⟩

theorem mem_segmentsFrom_append {s : Text} (h : s ∈ (a.append b).segmentsFrom here) :
    s ∈ a.segmentsFrom here ∨ s ∈ b.parts := by
  unfold append segmentsFrom at *
  split at h
  · split at h
    · simp_all [or_assoc]
    · simp_all
  · simp_all

theorem getLast?_parts {t : Text} (h : a.name = t) (ht : t ≠ []) : a.parts.getLast? = some t := by
  rw [name, List.getLastD_eq_getLast?] at h
  cases hl : a.parts.getLast? with
  | none => exact absurd (by simpa [hl] using h.symm) ht
  | some u => simpa [hl] using h

end Address

/-! ## Picking -/

namespace Disk

theorem name_of_probe_file {d : Disk} {a : Address} {bytes : Bytes}
    (h : d.probe a = .ok (some (.file bytes))) : a.name ≠ ['.', '.'] := by
  intro hname
  have hlast : (a.segmentsFrom d.workingDirectory).getLast? = some ['.', '.'] := by
    have hparts := Address.getLast?_parts hname (by simp)
    rw [Address.segmentsFrom]
    split
    · rw [List.getLast?_append, hparts]
      rfl
    · exact hparts
  obtain ⟨path, hwalk, hfile⟩ := node_of_probe h
  have hdir := walk_back hlast hwalk
  rw [Folder.binding?_eq_file.mpr hfile] at hdir
  cases hdir

end Disk

namespace Picker

variable {p : Picker}

theorem source_gives (hb : p.base.Proper) (name : Text) :
    Attempt.Gives (p.source name) Address.Proper Failure.Silent :=
  ((Address.proper_ofText name).expandHome p.homes).bind fun _ ha =>
    Attempt.gives_ok (hb.append ha)

theorem pick_gives (hb : p.base.Proper) (name : Text) (d : Disk) :
    Attempt.Gives (p.pick name d) (fun file => Forward file.name)
      Failure.Silent := by
  refine (source_gives hb name).bind fun source hsource => ?_
  refine (Disk.probe_gives d source).bind fun n hn => ?_
  split
  · have hname := hsource.isName_name (Disk.name_of_probe_file hn)
    refine Attempt.Gives.bind (P := fun _ => True) ?_ fun _ _ => Attempt.gives_ok hname
    exact Attempt.gives_of (fun _ _ => trivial) fun _ hf => Disk.decode_silent hf
  · exact Attempt.gives_error rfl

theorem pickAll_gives (hb : p.base.Proper) (names : List Text) (d : Disk) :
    Attempt.Gives (p.pickAll names d) (fun files => ∀ file ∈ files, Forward file.name)
      Failure.Silent := by
  induction names with
  | nil => exact Attempt.gives_ok (by simp)
  | cons name names ih =>
      rw [pickAll, List.mapM_cons]
      refine (pick_gives hb name d).bind fun file hfile => ?_
      refine ih.bind fun files hfiles => Attempt.gives_ok ?_
      simpa using ⟨hfile, hfiles⟩

/-! ## Saving -/

variable {admits : Text → Prop} {I : Disk → Prop}

theorem yields_save (hI : Disk.Stable admits I) (hb : Disk.Reaches admits I p.base) {name : Text}
    (ht : Disk.Reaches admits I (p.base.append (.ofText name))) (content : Text) :
    (p.save name content).Yields I (fun _ => True) Failure.Silent := by
  refine yields_ite (fun _ => yields_throw rfl) fun _ => ?_
  refine (Disk.yields_ensureDirectory hI hb).bind fun _ _ => ?_
  exact (Disk.yields_writeText hI ht).bind fun _ _ => yields_pure trivial

/-- Saving keeps every store tidy, also one on the same disk. -/
theorem yields_save_onDisk (hb : ∀ s ∈ p.base.segmentsFrom here, IsSegment s) (name content : Text) :
    (World.onDisk (p.save name content)).Yields (World.Tidy IsName here) (fun _ => True)
      Failure.Silent := by
  have hadmitted {a : Address} (ha : ∀ s ∈ a.segmentsFrom here, IsSegment s) :
      Disk.Reaches IsName (Disk.Tidy IsName here) a :=
    Disk.reaches_tidy fun s hs hback => ⟨ha s hs, hback⟩
  refine World.yields_onDisk ?_ ?_
  · refine yields_save (Disk.stable_tidy here) (hadmitted hb) (hadmitted fun s hs => ?_) content
    rcases Address.mem_segmentsFrom_append hs with hs | hs
    · exact hb s hs
    · exact Address.proper_ofText name s hs
  · exact yields_save Disk.stable_true (Disk.reaches_true _) (Disk.reaches_true _) content

end Picker

end PipeShell
