import PipeShell.Proofs.Disk.Walk
import PipeShell.Proofs.Store.Displayed

/-!
# Changes of the disk

Operations of the disk on admitted names only alter its tree at paths of such names, so they keep it
tidy. Their failures show no path of a store.
-/

namespace PipeShell.Disk

open PipeShell.Action Failure

variable {admits : Text → Prop} {I : Disk → Prop} {here : List Text}

/-- Every segment is admitted unless it steps back. -/
def Admitted (admits : Text → Prop) (segments : List Text) : Prop :=
  ∀ s ∈ segments, s ≠ ['.', '.'] → admits s

/-- Every name on the disk is admitted, no two entries of a directory share one, and the program runs
in the directory at `here`. -/
structure Tidy (admits : Text → Prop) (here : List Text) (d : Disk) : Prop where
  tree : d.tree.Tidy admits
  workingDirectory : d.workingDirectory = here

/-- The condition stays true when the tree is altered at a path of admitted names, and when it is
emptied. -/
structure Stable (admits : Text → Prop) (I : Disk → Prop) : Prop where
  alter : ∀ d path change, I d → (∀ s ∈ path, admits s) →
    (∀ old n, change old = some n → Node.Tidy admits n) →
    I { d with tree := d.tree.alter path change }
  empty : ∀ d, I d → I { d with tree := .empty }

/-- The segments of the address from the root are admitted on all disks with `I`. -/
def Reaches (admits : Text → Prop) (I : Disk → Prop) (a : Address) : Prop :=
  ∀ d, I d → Admitted admits (a.segmentsFrom d.workingDirectory)

theorem stable_tidy (here : List Text) : Stable admits (Tidy admits here) where
  alter _ _ _ hd hp hc := ⟨Folder.tidy_alter hd.tree hp hc, hd.workingDirectory⟩
  empty _ hd := ⟨trivial, hd.workingDirectory⟩

theorem stable_true : Stable admits fun _ => True :=
  ⟨fun _ _ _ _ _ _ => trivial, fun _ _ => trivial⟩

theorem reaches_tidy {a : Address} (ha : Admitted admits (a.segmentsFrom here)) :
    Reaches admits (Tidy admits here) a := by
  intro d hd
  rwa [hd.workingDirectory]

theorem reaches_true (a : Address) : Reaches (fun _ => True) (fun _ => True) a :=
  fun _ _ _ _ _ => trivial

/-! ## Operations -/

theorem place_admitted {d : Disk} {segments path : List Text} (hs : Admitted admits segments)
    (h : d.place segments = .ok path) : ∀ s ∈ path, admits s := by
  obtain ⟨rfl, -⟩ := place_eq_ok h
  intro s hmem
  obtain ⟨hmem, hforward⟩ := Path.mem_walk hmem
  exact hs s hmem hforward

theorem makeDirectory_stable (hI : Stable admits I) {d made : Disk} {segments : List Text}
    (hd : I d) (hs : Admitted admits segments) (h : d.makeDirectory segments = .ok made) :
    I made := by
  rw [makeDirectory] at h
  cases hp : d.place segments with
  | error e => simp [hp] at h
  | ok path =>
      simp only [hp, Attempt.ok_bind] at h
      split at h
      · cases h
      · cases h
        refine hI.alter d path _ hd (place_admitted hs hp) fun _ n hn => ?_
        cases hn
        trivial

theorem probe_gives (d : Disk) (a : Address) :
    Attempt.Gives (d.probe a) (fun n => d.probe a = .ok n) Silent := by
  refine Attempt.gives_of (fun _ h => h) fun f h => ?_
  rw [probe] at h
  split at h
  · cases h
  · split at h
    · cases h
    · cases h
      rfl
    · cases h

theorem node_of_probe {d : Disk} {a : Address} {n : Node Bytes} (h : d.probe a = .ok (some n)) :
    ∃ path, d.walk [] (a.segmentsFrom d.workingDirectory) = .ok path
      ∧ d.tree.node? path = some n := by
  rw [probe] at h
  split at h
  · cases h
  · split at h
    · rename_i m hm
      obtain rfl : m = n := by simpa using h
      rw [node] at hm
      cases hw : d.walk [] (a.segmentsFrom d.workingDirectory) with
      | error e => simp [hw] at hm
      | ok path =>
          simp only [hw, Attempt.ok_bind] at hm
          split at hm
          · rename_i found hfound
            cases hm
            exact ⟨path, rfl, hfound⟩
          · cases hm
    · cases h
    · cases h

theorem Tidy.probe {d : Disk} (hd : d.Tidy admits here) {a : Address} {n : Node Bytes}
    (h : d.probe a = .ok (some n)) : n.Tidy admits := by
  obtain ⟨path, _, hn⟩ := node_of_probe h
  exact hd.tree.node hn

theorem isDirectory_gives (d : Disk) (a : Address) :
    Attempt.Gives (d.isDirectory a) (fun _ => True) Silent := by
  refine (probe_gives d a).bind fun n _ => ?_
  split <;> exact Attempt.gives_ok trivial

/-- The condition stays true when the directory at the address is made. -/
def KeptByMaking (I : Disk → Prop) (a : Address) : Prop :=
  ∀ d made, I d → d.makeDirectory (a.segmentsFrom d.workingDirectory) = .ok made → I made

theorem keptByMaking_stable (hI : Stable admits I) {a : Address} (ha : Reaches admits I a) :
    KeptByMaking I a :=
  fun d _ hd hm => makeDirectory_stable hI hd (ha d hd) hm

theorem yields_makeOrKeep {a : Address} (ha : KeptByMaking I a) :
    (makeOrKeep a).Yields I (fun _ => True) Silent := by
  refine yields_of_outcome fun d hd => ?_
  simp only [outcome, makeOrKeep]
  split
  · rename_i made hm
    exact ⟨ha d made hd hm, trivial⟩
  · exact ⟨hd, rfl⟩
  · split
    · rename_i f hf
      exact ⟨hd, (isDirectory_gives d a).failed hf⟩
    · exact ⟨hd, trivial⟩
    · exact ⟨hd, rfl⟩

/-- When the directory above is missing it is made first. -/
theorem outcome_makeDirectories_missing {root name : Text} {above : List Text} {d : Disk}
    (h : d.makeDirectory ((⟨root, (name :: above).reverse⟩ : Address).segmentsFrom d.workingDirectory)
      = .error .noEntry) :
    (makeDirectories root (name :: above)).outcome d
      = (makeDirectories root above >>= fun _ =>
          makeOrKeep ⟨root, (name :: above).reverse⟩).outcome d := by
  rw [outcome_bind]
  simp only [outcome, makeDirectories, h]
  generalize makeDirectories root above d = out
  obtain ⟨r, d'⟩ := out
  cases r <;> rfl

theorem outcome_makeDirectories_found {root name : Text} {above : List Text} {d : Disk}
    (h : d.makeDirectory ((⟨root, (name :: above).reverse⟩ : Address).segmentsFrom d.workingDirectory)
      ≠ .error .noEntry) :
    (makeDirectories root (name :: above)).outcome d
      = (makeOrKeep ⟨root, (name :: above).reverse⟩).outcome d := by
  simp only [outcome, makeDirectories]

theorem Reaches.above {root : Text} {parts above : List Text} (h : Reaches admits I ⟨root, parts⟩)
    (habove : above <+: parts) : Reaches admits I ⟨root, above⟩ := by
  intro d hd s hs
  refine h d hd s ?_
  simp only [Address.segmentsFrom] at hs ⊢
  split at hs
  · rename_i hroot
    rw [if_pos hroot]
    exact (List.mem_append.mp hs).elim (List.mem_append_left _) fun hs =>
      List.mem_append_right _ (habove.subset hs)
  · rename_i hroot
    rw [if_neg hroot]
    exact habove.subset hs

theorem yields_makeDirectories {root : Text} {above : List Text}
    (ha : ∀ parts, parts <+: above.reverse → KeptByMaking I ⟨root, parts⟩) :
    (makeDirectories root above).Yields I (fun _ => True) Silent := by
  induction above with
  | nil => exact yields_makeOrKeep (ha [] List.prefix_rfl)
  | cons name above ih =>
      have habove : above.reverse <+: (name :: above).reverse := by simp
      have hkeep := yields_makeOrKeep (ha (name :: above).reverse List.prefix_rfl)
      have hboth := (ih fun parts hparts => ha parts (hparts.trans habove)).bind fun _ _ => hkeep
      refine yields_of_outcome fun d hd => ?_
      by_cases h : d.makeDirectory
          ((⟨root, (name :: above).reverse⟩ : Address).segmentsFrom d.workingDirectory)
          = .error .noEntry
      · rw [outcome_makeDirectories_missing h]
        exact ⟨hboth.kept d hd, hboth.result d hd⟩
      · rw [outcome_makeDirectories_found h]
        exact ⟨hkeep.kept d hd, hkeep.result d hd⟩

/-- What making each of the directories keeps is kept when all of them are made. -/
theorem yields_ensureDirectory_of_kept {a : Address}
    (ha : ∀ parts, parts <+: a.parts → KeptByMaking I ⟨a.root, parts⟩) :
    (ensureDirectory a).Yields I (fun _ => True) Silent := by
  refine yields_ite (fun _ => yields_throw rfl) fun _ => yields_makeDirectories ?_
  simpa using ha

theorem yields_ensureDirectory (hI : Stable admits I) {a : Address} (ha : Reaches admits I a) :
    (ensureDirectory a).Yields I (fun _ => True) Silent :=
  yields_ensureDirectory_of_kept fun _ hparts => keptByMaking_stable hI (ha.above hparts)

theorem yields_write (hI : Stable admits I) {a : Address} (ha : Reaches admits I a)
    (bytes : Bytes) : (write a bytes).Yields I (fun _ => True) Silent := by
  refine yields_of_outcome fun d hd => ?_
  simp only [outcome, write]
  split
  · exact ⟨hd, rfl⟩
  · split
    · exact ⟨hd, rfl⟩
    · rename_i path hp
      split
      · exact ⟨hd, rfl⟩
      · refine ⟨hI.alter d path _ hd (place_admitted (ha d hd) hp) fun _ n hn => ?_, trivial⟩
        cases hn
        trivial

theorem encode_silent {encoding : Encoding} {t : Text} {f : Failure}
    (h : encoding.encode t = .error f) : Silent f := by
  cases encoding with
  | utf8 => cases h
  | latin1 | ascii =>
      simp only [Encoding.encode, Encoding.encodeBelow] at h
      split at h <;> cases h
      rfl
  | unknown name =>
      cases h
      rfl

theorem decode_silent {encoding : Encoding} {bytes : Bytes} {f : Failure}
    (h : textOf encoding bytes = .error f) : Silent f := by
  cases encoding with
  | unknown name =>
      cases h
      rfl
  | _ => cases h

theorem yields_writeText (hI : Stable admits I) {encoding : Encoding} {a : Address} {t : Text}
    (ha : Reaches admits I a) : (writeText encoding a t).Yields I (fun _ => True) Silent := by
  rw [writeText]
  split
  · exact yields_write hI ha _
  · rename_i f hf
    exact (yields_write hI ha []).bind fun _ _ => yields_throw (encode_silent hf)

theorem erase_stable (hI : Stable admits I) {d : Disk} (hd : I d) {segments : List Text}
    (hs : ∀ s ∈ segments, admits s) : I (d.erase segments) :=
  hI.alter d segments _ hd hs fun _ _ hn => nomatch hn

theorem hollow_stable (hI : Stable admits I) {d : Disk} (hd : I d) {segments : List Text}
    (hs : ∀ s ∈ segments, admits s) : I { d with tree := d.tree.hollow segments } := by
  rw [Folder.hollow]
  split
  · exact hI.empty d hd
  · refine hI.alter d segments _ hd hs fun _ n hn => ?_
    cases hn
    trivial

end PipeShell.Disk
