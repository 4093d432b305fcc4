import Mathlib.Data.List.Basic
import PipeShell.Proofs.Disk.Tidy

/-!
# Paths that do not step back

On a disk where names may have any length, what an operation does at a path that does not step back
is decided by what is bound there and above.
-/

namespace PipeShell

namespace Disk

variable {d : Disk} {p q : List Text} {name : Text}

/-- No segment of the path steps back or holds NUL. -/
def Plain (path : List Text) : Prop :=
  ∀ s ∈ path, s ≠ ['.', '.'] ∧ '\x00' ∉ s

theorem Plain.subset (h : Plain p) (hq : q ⊆ p) : Plain q :=
  fun s hs => h s (hq hs)

theorem segmentsFrom_ofSegments (here : List Text) : (Address.ofSegments p).segmentsFrom here = p := by
  simp [Address.segmentsFrom, Address.ofSegments]

/-! ## Walks -/

/-- How a walk along a path ends. -/
inductive Walked (d : Disk) (p : List Text) : Except DiskError (List Text) → Prop
  | found : d.tree.binding? p ≠ none → Walked d p (.ok p)
  | missing : d.tree.binding? p = none → d.tree.Clear p → Walked d p (.error .noEntry)
  | blocked {q content} : q <+: p → q ≠ p → d.tree.binding? q = some (.file content) →
      Walked d p (.error .notDirectory)

variable (hlong : d.longestName = none)
include hlong

theorem walked_append {walked : List Text}
    (hdir : d.tree.binding? walked.reverse = some .directory) (hp : Plain p) :
    d.Walked (walked.reverse ++ p) (d.walk walked p) := by
  induction p generalizing walked with
  | nil =>
      rw [List.append_nil]
      exact .found (by simp [hdir])
  | cons name rest ih =>
      have hname : name ≠ ['.', '.'] := (hp name (by simp)).1
      have hrest : Plain rest := hp.subset (List.subset_cons_self _ _)
      have hcons : (name :: walked).reverse = walked.reverse ++ [name] := by simp
      rw [walk, if_neg hname, if_neg (by simp [isTooLong, hlong])]
      cases hn : d.tree.node? (name :: walked).reverse with
      | none =>
          rw [hcons, ← Folder.binding?_eq_none] at hn
          have hnone : d.tree.binding? (walked.reverse ++ [name] ++ rest) = none := by
            by_cases hr : rest = []
            · simpa [hr] using hn
            · exact Folder.binding?_below hr (by simp [hn])
          exact .missing (by simpa using hnone) ((Folder.clear_of_directory hdir).append hn rest)
      | some n =>
          have happend : walked.reverse ++ name :: rest = (name :: walked).reverse ++ rest := by simp
          rw [happend]
          cases n with
          | folder inside => exact ih (Folder.binding?_eq_directory.mpr ⟨inside, hn⟩) hrest
          | file content =>
              have hfile := Folder.binding?_eq_file.mpr hn
              by_cases hr : rest = []
              · subst hr
                simp only [if_true, List.append_nil]
                exact .found (by simp only [hfile, ne_eq, reduceCtorEq, not_false_eq_true])
              · simp only [if_neg hr]
                exact .blocked (List.prefix_append _ _) (by simpa using hr) hfile

theorem walked (hp : Plain p) : d.Walked p (d.walk [] p) :=
  @walked_append d p hlong [] rfl hp

omit hlong in
theorem hasNull_ofSegments (hp : Plain p) : (Address.ofSegments p).hasNull = false := by
  simpa [Address.hasNull, Address.ofSegments] using fun s hs => (hp s hs).2

theorem probe_ofSegments (hp : Plain p) : d.probe (.ofSegments p) = .ok (d.tree.node? p) := by
  rw [probe, hasNull_ofSegments hp, segmentsFrom_ofSegments, node]
  have hw := walked hlong hp
  generalize d.walk [] p = r at hw
  cases hw with
  | found hb =>
      obtain ⟨n, hn⟩ := Option.ne_none_iff_exists'.mp (mt Folder.binding?_eq_none.mpr hb)
      simp [hn]
  | missing hb => simp [Folder.binding?_eq_none.mp hb]
  | @blocked q content hq hne hfile =>
      have hnone := Folder.binding?_eq_none.mp (Folder.binding?_below_file hq hne hfile)
      simp [hnone]

theorem node_of_found (hp : Plain p) {n : Node Bytes} (hn : d.tree.node? p = some n) :
    d.node p = .ok n := by
  have hbound : d.tree.binding? p ≠ none := by simp [Folder.binding?, hn]
  have hw := walked hlong hp
  rw [node]
  generalize d.walk [] p = r at hw
  cases hw with
  | found => simp [hn]
  | missing hnone => exact absurd hnone hbound
  | blocked hq hne hfile => exact absurd (Folder.binding?_below_file hq hne hfile) hbound

/-! ## Making directories -/

/-- How finding the place of an entry ends. -/
inductive Placed (d : Disk) (p : List Text) : Except DiskError (List Text) → Prop
  | placed : d.tree.binding? p.dropLast = some .directory → Placed d p (.ok p)
  | missing : d.tree.binding? p.dropLast = none → d.tree.binding? p = none → d.tree.Clear p →
      Placed d p (.error .noEntry)
  | blocked {q content} : q <+: p → q ≠ p → d.tree.binding? q = some (.file content) →
      Placed d p (.error .notDirectory)

theorem placed (hp : Plain p) : d.Placed p (d.place p) := by
  rcases List.eq_nil_or_concat' p with rfl | ⟨above, name, rfl⟩
  · exact .placed rfl
  · have hname : name ≠ ['.', '.'] := (hp name (by simp)).1
    have hshort : d.isTooLong name = false := by simp [isTooLong, hlong]
    have hw := walked hlong (hp.subset (List.subset_append_left above [name]))
    rw [place, List.getLast?_concat, List.dropLast_concat]
    generalize d.walk [] above = r at hw
    cases hw with
    | found hb =>
        obtain ⟨n, hn⟩ := Option.ne_none_iff_exists'.mp (mt Folder.binding?_eq_none.mpr hb)
        cases n with
        | file content =>
            simp only [Attempt.ok_bind, hn]
            exact .blocked (List.prefix_append _ _) (by simp) (Folder.binding?_eq_file.mpr hn)
        | folder inside =>
            have hdir := Folder.binding?_eq_directory.mpr ⟨inside, hn⟩
            simp only [Attempt.ok_bind, hn, if_neg hname, hshort, Bool.false_eq_true, if_false]
            exact .placed (by simpa using hdir)
    | missing hb hclear =>
        have hdir : d.tree.binding? above ≠ some .directory := by simp [hb]
        have hnone := Folder.binding?_below (q := [name]) (by simp) hdir
        exact .missing (by simpa using hb) hnone (hclear.append hnone [])
    | @blocked q content hq hne hfile =>
        refine .blocked (hq.trans (List.prefix_append _ _)) ?_ hfile
        rintro rfl
        have hlength : (above ++ [name]).length ≤ above.length := hq.length_le
        rw [List.length_append, List.length_singleton] at hlength
        omega

/-- How making one directory ends. -/
inductive Made (d : Disk) (p : List Text) : Except DiskError Disk → Prop
  | made : d.tree.binding? p.dropLast = some .directory → d.tree.binding? p = none →
      Made d p (.ok { d with tree := d.tree.alter p fun _ => some (.folder .empty) })
  | exists : d.tree.binding? p ≠ none → Made d p (.error .exists)
  | missing : d.tree.binding? p.dropLast = none → d.tree.binding? p = none → d.tree.Clear p →
      Made d p (.error .noEntry)
  | blocked {q content} : q <+: p → q ≠ p → d.tree.binding? q = some (.file content) →
      Made d p (.error .notDirectory)

theorem made (hp : Plain p) : d.Made p (d.makeDirectory p) := by
  have hplaced := placed hlong hp
  rw [makeDirectory]
  generalize d.place p = r at hplaced
  cases hplaced with
  | placed hdir =>
      rw [Attempt.ok_bind]
      cases hn : d.tree.node? p with
      | none => exact .made hdir (Folder.binding?_eq_none.mpr hn)
      | some n => exact .exists fun h => by simp [Folder.binding?_eq_none.mp h] at hn
  | missing habove hnone hclear => exact .missing habove hnone hclear
  | blocked hq hne hfile => exact .blocked hq hne hfile

theorem isDirectory_ofSegments (hp : Plain p) :
    d.isDirectory (.ofSegments p) = .ok (decide (d.tree.binding? p = some .directory)) := by
  rw [isDirectory, probe_ofSegments hlong hp]
  cases hn : d.tree.node? p with
  | none => simp [Folder.binding?, hn]
  | some n => cases n <;> simp [Folder.binding?, hn]

/-- How making the directory at a path and the missing ones above it ends. -/
inductive Ensured (d : Disk) (p : List Text) : Except Failure Unit × Disk → Prop
  | ensured {tree : Folder Bytes} : d.tree.Clear p → tree.Distinct →
      (∀ q, tree.binding? q = if q <+: p then some .directory else d.tree.binding? q) →
      Ensured d p (.ok (), { d with tree })
  | blocked {f} : ¬d.tree.Clear p → Ensured d p (.error f, d)

omit hlong in
/-- The directories above may have been made before. -/
theorem Ensured.after {above : List Text} {tree : Folder Bytes} {out : Except Failure Unit × Disk}
    (h : Ensured { d with tree } p out) (hclear : d.tree.Clear p) (habove : above <+: p)
    (hbindings : ∀ q, tree.binding? q
      = if q <+: above then some .directory else d.tree.binding? q) : d.Ensured p out := by
  cases h with
  | ensured _ hdistinct hall =>
      refine .ensured hclear hdistinct fun q => ?_
      rw [hall]
      by_cases hq : q <+: p
      · rw [if_pos hq, if_pos hq]
      · rw [if_neg hq, if_neg hq, hbindings, if_neg fun h => hq (h.trans habove)]
  | blocked hblocked =>
      refine absurd (fun q content hq hfile => ?_) hblocked
      rw [hbindings] at hfile
      split at hfile
      · cases hfile
      · exact hclear q content hq hfile

theorem ensured_makeOrKeep (ht : d.tree.Distinct) (hp : Plain p)
    (hfound : d.makeDirectory p ≠ .error .noEntry) :
    d.Ensured p ((makeOrKeep (.ofSegments p)).outcome d) := by
  have hm := made hlong hp
  simp only [Action.outcome, makeOrKeep, segmentsFrom_ofSegments, isDirectory_ofSegments hlong hp]
  generalize d.makeDirectory p = r at hm hfound
  cases hm with
  | made habove hnone =>
      have hne : p ≠ [] := by
        rintro rfl
        cases hnone
      refine .ensured ?_ ?_ (Folder.binding?_alter_folder ht hne habove hnone)
      · have hlast := List.dropLast_concat_getLast hne
        rw [← hlast] at hnone ⊢
        exact (Folder.clear_of_directory habove).append hnone []
      · refine Folder.tidy_alter ht (fun _ _ => trivial) fun old n hn => ?_
        cases hn
        trivial
  | «exists» hsome =>
      by_cases hdir : d.tree.binding? p = some .directory
      · simp only [hdir, decide_true]
        refine .ensured (Folder.clear_of_directory hdir) ht fun q => ?_
        split
        · rename_i hq
          exact Folder.directory_above hdir hq
        · rfl
      · simp only [hdir, decide_false]
        refine .blocked fun hclear => ?_
        cases hb : d.tree.binding? p with
        | none => exact hsome hb
        | some b =>
            cases b with
            | directory => exact hdir hb
            | file content => exact hclear p content List.prefix_rfl hb
  | missing => exact absurd rfl hfound
  | blocked hq hne hfile =>
      have hnone := Folder.binding?_below_file hq hne hfile
      simp only [hnone, reduceCtorEq, decide_false]
      exact .blocked fun hclear => hclear _ _ hq hfile

theorem ensured_makeDirectories {above : List Text} (ht : d.tree.Distinct)
    (hp : Plain above.reverse) :
    d.Ensured above.reverse ((makeDirectories ['/'] above).outcome d) := by
  induction above with
  | nil =>
      refine ensured_makeOrKeep hlong ht hp ?_
      simp [makeDirectory, place]
  | cons name above ih =>
      have hsegments : (⟨['/'], (name :: above).reverse⟩ : Address).segmentsFrom d.workingDirectory
          = (name :: above).reverse := segmentsFrom_ofSegments _
      by_cases hfound : d.makeDirectory (name :: above).reverse = .error .noEntry
      · have hpre : above.reverse <+: (name :: above).reverse := by simp
        have hm := made hlong hp
        rw [hfound] at hm
        cases hm with
        | missing _ hnone hclear =>
            have habove := ih (hp.subset hpre.subset)
            rw [outcome_makeDirectories_missing (by rwa [hsegments]), Action.outcome_bind]
            generalize (makeDirectories ['/'] above).outcome d = out at habove
            cases habove with
            | blocked h => exact absurd (hclear.above hpre) h
            | @ensured tree _ htree hbindings =>
                have hself : tree.binding? (name :: above).reverse = none := by
                  rw [hbindings, if_neg, hnone]
                  intro h
                  have hlength := h.length_le
                  simp only [List.reverse_cons, List.length_append, List.length_singleton] at hlength
                  omega
                have hdir : tree.binding? above.reverse = some .directory := by
                  rw [hbindings, if_pos List.prefix_rfl]
                have hkept := ensured_makeOrKeep (d := { d with tree }) hlong htree hp ?_
                · exact hkept.after hclear hpre hbindings
                -- The directory above has been made, so it cannot be missing again.
                · intro h
                  have hm := made (d := { d with tree }) hlong hp
                  rw [h] at hm
                  cases hm with
                  | missing habove => simp [hdir] at habove
      · rw [outcome_makeDirectories_found (by rwa [hsegments])]
        exact ensured_makeOrKeep hlong ht hp hfound

theorem ensured (ht : d.tree.Distinct) (hp : Plain p) :
    d.Ensured p ((ensureDirectory (.ofSegments p)).outcome d) := by
  have hmade : d.Ensured p.reverse.reverse ((makeDirectories ['/'] p.reverse).outcome d) :=
    ensured_makeDirectories hlong ht (by simpa using hp)
  rw [List.reverse_reverse] at hmade
  rw [ensureDirectory, Action.outcome_ite, hasNull_ofSegments hp]
  exact hmade

/-! ## Writing -/

/-- How writing a file ends. -/
inductive Written (d : Disk) (p : List Text) (bytes : Bytes) : Except Failure Unit × Disk → Prop
  | written : d.tree.binding? p.dropLast = some .directory → d.tree.binding? p ≠ some .directory →
      Written d p bytes (.ok (), { d with tree := d.tree.write p bytes })
  | refused {f} : d.tree.binding? p.dropLast ≠ some .directory
        ∨ d.tree.binding? p = some .directory →
      Written d p bytes (.error f, d)

theorem written (hp : Plain p) (bytes : Bytes) :
    d.Written p bytes ((write (.ofSegments p) bytes).outcome d) := by
  have hplaced := placed hlong hp
  simp only [Action.outcome, write, hasNull_ofSegments hp, segmentsFrom_ofSegments,
    Bool.false_eq_true, if_false]
  generalize d.place p = r at hplaced
  cases hplaced with
  | placed hdir =>
      dsimp only
      split
      · rename_i inside hn
        exact .refused (.inr (Folder.binding?_eq_directory.mpr ⟨inside, hn⟩))
      · rename_i hn
        refine .written hdir fun h => ?_
        obtain ⟨inside, hin⟩ := Folder.binding?_eq_directory.mp h
        exact hn inside hin
  | missing habove => exact .refused (.inl (by simp [habove]))
  | @blocked q content hq hne hfile =>
      refine .refused (.inl fun hdir => ?_)
      have habove := Folder.directory_above hdir (Folder.prefix_dropLast hq hne)
      rw [hfile] at habove
      cases habove

end Disk

end PipeShell
