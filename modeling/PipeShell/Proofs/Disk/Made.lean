import PipeShell.Proofs.Disk.Agree

/-!
# Directories that are made

Where the directory at an address was made, or found, there is one. Where there is an entry already,
nothing is made.
-/

namespace PipeShell.Disk

open PipeShell.Action PipeShell.Path

variable {d d' : Disk} {a : Address} {p segments : List Text} {name : Text} {n : Node Bytes}

theorem isDirectory_iff :
    d.isDirectory a = .ok true ↔ ∃ inside, d.probe a = .ok (some (.folder inside)) := by
  rw [isDirectory]
  cases d.probe a with
  | error f => simp
  | ok n => rcases n with - | (bytes | inside) <;> simp [pure, Except.pure]

theorem binding_of_isDirectory (h : d.isDirectory a = .ok true) :
    d.tree.binding? (Path.walk (a.segmentsFrom d.workingDirectory)) = some .directory := by
  obtain ⟨inside, hprobe⟩ := isDirectory_iff.mp h
  obtain ⟨p, hw, hn⟩ := node_of_probe hprobe
  rw [Path.walk, ← walk_eq_ok hw]
  exact Folder.binding?_eq_directory.mpr ⟨inside, hn⟩

/-! ## Made directories -/

/-- A directory is made where nothing is, in an existing one. -/
theorem makeDirectory_eq_ok (h : d.makeDirectory segments = .ok d') :
    d' = { d with tree := d.tree.alter (Path.walk segments) fun _ => some (.folder .empty) }
      ∧ Path.walk segments ≠ []
      ∧ d.tree.binding? (Path.walk segments).dropLast = some .directory
      ∧ d.tree.binding? (Path.walk segments) = none := by
  rw [makeDirectory] at h
  cases hp : d.place segments with
  | error e => simp [hp] at h
  | ok path =>
      obtain ⟨rfl, hdir⟩ := place_eq_ok hp
      rw [hp, Attempt.ok_bind] at h
      split at h
      · cases h
      · rename_i hfree
        cases h
        refine ⟨rfl, fun heq => ?_, hdir, Folder.binding?_eq_none.mpr hfree⟩
        rw [heq] at hfree
        cases hfree

/-- What makes the directory last leaves one, and keeps the names of the disk distinct. -/
theorem binding_of_makeOrKeep (hd : d.tree.Distinct) (h : (makeOrKeep a).outcome d = (.ok (), d')) :
    d'.tree.binding? (Path.walk (a.segmentsFrom d'.workingDirectory)) = some .directory := by
  dsimp only [outcome, makeOrKeep] at h
  split at h
  · rename_i made hm
    obtain rfl : made = d' := congrArg Prod.snd h
    obtain ⟨rfl, hne, hdir, hfree⟩ := makeDirectory_eq_ok hm
    rw [Folder.binding?_alter_folder hd hne hdir hfree]
    exact if_pos List.prefix_rfl
  · cases h
  · split at h
    · cases h
    · rename_i hfound
      obtain rfl : d = d' := congrArg Prod.snd h
      exact binding_of_isDirectory hfound
    · cases h

theorem makeOrKeep_of_ensureDirectory (hd : d.tree.Distinct)
    (h : (ensureDirectory a).outcome d = (.ok (), d')) :
    ∃ before : Disk, before.tree.Distinct ∧ (makeOrKeep a).outcome before = (.ok (), d') := by
  obtain ⟨root, parts⟩ := a
  rw [ensureDirectory, outcome_ite] at h
  split at h
  · cases h
  · dsimp only at h
    generalize hparts : parts.reverse = reversed at h
    obtain rfl : parts = reversed.reverse := by rw [← hparts, List.reverse_reverse]
    cases reversed with
    | nil => exact ⟨d, hd, h⟩
    | cons name above =>
        by_cases hm : d.makeDirectory
            ((⟨root, (name :: above).reverse⟩ : Address).segmentsFrom d.workingDirectory)
            = .error .noEntry
        · rw [outcome_makeDirectories_missing hm] at h
          obtain ⟨_, before, hbefore, hkept⟩ := bind_eq_ok h
          have hstable (parts : List Text) (_ : parts <+: above.reverse) :
              KeptByMaking (Tidy (fun _ => True) d.workingDirectory) ⟨root, parts⟩ :=
            keptByMaking_stable (stable_tidy _) (reaches_tidy fun _ _ _ => trivial)
          have hyields := yields_makeDirectories hstable
          exact ⟨before, (hyields.of_ok ⟨hd, rfl⟩ hbefore).1.tree, hkept⟩
        · rw [outcome_makeDirectories_found hm] at h
          exact ⟨d, hd, h⟩

theorem binding_of_ensureDirectory (hd : d.tree.Distinct)
    (h : (ensureDirectory a).outcome d = (.ok (), d')) :
    d'.tree.Distinct
      ∧ d'.tree.binding? (Path.walk (a.segmentsFrom d'.workingDirectory)) = some .directory := by
  have hreaches : Reaches (fun _ => True) (Tidy (fun _ => True) d.workingDirectory) a :=
    reaches_tidy fun _ _ _ => trivial
  have hyields := yields_ensureDirectory (stable_tidy d.workingDirectory) hreaches
  obtain ⟨before, hbefore, hkept⟩ := makeOrKeep_of_ensureDirectory hd h
  exact ⟨(hyields.of_ok ⟨hd, rfl⟩ h).1.tree, binding_of_makeOrKeep hbefore hkept⟩

/-! ## Kept entries -/

theorem makeDirectory_of_node (hw : d.walk [] segments = .ok p) (hn : d.tree.node? p = some n) :
    d.makeDirectory segments = .error .exists := by
  have hplace : d.place segments = .ok p := by
    rcases List.eq_nil_or_concat' segments with rfl | ⟨front, name, rfl⟩
    · exact hw
    · obtain ⟨above, folder, hfront, hfolder, hstep⟩ := walk_concat rfl hw
      rw [place, List.getLast?_concat]
      dsimp only
      rw [List.dropLast_concat, hfront, Attempt.ok_bind, hfolder]
      dsimp only
      rcases hstep with ⟨rfl, rfl⟩ | ⟨hforward, hshort, rfl⟩
      · rfl
      · rw [if_neg hforward, if_neg (by simp [hshort])]
        rfl
  rw [makeDirectory, hplace, Attempt.ok_bind, hn]
  rfl

theorem outcome_makeOrKeep_of_probe (h : d.probe a = .ok (some n)) :
    (makeOrKeep a).outcome d = (.ok (), d)
      ∨ (makeOrKeep a).outcome d = (.error (.disk .exists a.toText), d) := by
  obtain ⟨p, hw, hn⟩ := node_of_probe h
  simp only [outcome, makeOrKeep, makeDirectory_of_node hw hn, isDirectory, h, Attempt.ok_bind]
  cases n with
  | folder inside => exact .inl rfl
  | file bytes => exact .inr rfl

/-- Where there is an entry, nothing is made. -/
theorem outcome_ensureDirectory_of_probe (h : d.probe a = .ok (some n)) :
    (ensureDirectory a).outcome d = (.ok (), d)
      ∨ (ensureDirectory a).outcome d = (.error (.disk .exists a.toText), d) := by
  have hnull : a.hasNull = false := by
    rw [← Bool.not_eq_true]
    intro hnull
    simp [probe, hnull] at h
  have hkept := outcome_makeOrKeep_of_probe h
  obtain ⟨p, hw, hn⟩ := node_of_probe h
  have hm := makeDirectory_of_node hw hn
  obtain ⟨root, parts⟩ := a
  rw [ensureDirectory, if_neg (by simp [hnull])]
  dsimp only
  generalize hparts : parts.reverse = reversed
  obtain rfl : parts = reversed.reverse := by rw [← hparts, List.reverse_reverse]
  cases reversed with
  | nil => exact hkept
  | cons name above => rwa [outcome_makeDirectories_found (by rw [hm]; simp)]

end PipeShell.Disk
