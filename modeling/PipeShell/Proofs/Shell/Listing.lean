import PipeShell.Proofs.Path.Segments
import PipeShell.Shell.Navigation

/-!
# Listings in another order

A directory is listed in the same way in whatever order a store gives its entries, because no two of
them share a name.
-/

namespace PipeShell

theorem Text.before_iff {s t : Text} : before s t = true ↔ s < t := by
  induction s generalizing t with
  | nil => cases t <;> simp [before]
  | cons a s ih =>
      cases t with
      | nil => simp [before]
      | cons b t =>
          simp only [before, List.cons_lt_cons_iff, Bool.or_eq_true, Bool.and_eq_true, beq_iff_eq,
            decide_eq_true_eq, ih]
          rfl

/-- The entry stands where its path says. -/
def StoreEntry.Placed (e : StoreEntry) : Prop :=
  ∃ names, names ≠ [] ∧ (∀ s ∈ names, Path.IsSegment s)
    ∧ e.path = Path.ofSegments names ∧ e.name = names.getLastD []

/-- The entry comes first in a listing, or may do so. -/
def StoreEntry.precedes (a b : StoreEntry) : Bool :=
  if a.isDirectory = b.isDirectory then !Text.before b.name a.name else a.isDirectory

namespace StoreEntry

variable {a b c : StoreEntry}

theorem precedes_iff (h : a.isDirectory = b.isDirectory) :
    a.precedes b = true ↔ ¬b.name < a.name := by
  rw [precedes, if_pos h, Bool.not_eq_true', ← Bool.not_eq_true, Text.before_iff]

theorem precedes_of_ne (h : a.isDirectory ≠ b.isDirectory) : a.precedes b = a.isDirectory := by
  rw [precedes, if_neg h]

theorem precedes_total (a b : StoreEntry) : (a.precedes b || b.precedes a) = true := by
  by_cases h : a.isDirectory = b.isDirectory
  · rw [Bool.or_eq_true, precedes_iff h, precedes_iff h.symm, List.not_lt, List.not_lt]
    exact List.le_total _ _
  · rw [precedes_of_ne h, precedes_of_ne (Ne.symm h)]
    cases ha : a.isDirectory <;> cases hb : b.isDirectory <;> simp_all

theorem precedes_trans (hab : a.precedes b = true) (hbc : b.precedes c = true) :
    a.precedes c = true := by
  by_cases h : a.isDirectory = b.isDirectory
  · by_cases h' : b.isDirectory = c.isDirectory
    · rw [precedes_iff h, List.not_lt] at hab
      rw [precedes_iff h', List.not_lt] at hbc
      rw [precedes_iff (h.trans h'), List.not_lt]
      exact List.le_trans hab hbc
    · rw [precedes_of_ne h'] at hbc
      rw [precedes_of_ne (h ▸ h'), h, hbc]
  · rw [precedes_of_ne h] at hab
    have hb : b.isDirectory = false := by simpa [hab] using Ne.symm h
    have hc : c.isDirectory = false := by
      by_cases h' : b.isDirectory = c.isDirectory
      · rw [← h', hb]
      · rw [precedes_of_ne h', hb] at hbc
        cases hbc
    rw [precedes_of_ne (by simp [hab, hc]), hab]

theorem eq_of_precedes (ha : a.Placed) (hb : b.Placed)
    (hparent : (Path.parentAndName a.path).1 = (Path.parentAndName b.path).1)
    (hab : a.precedes b = true) (hba : b.precedes a = true) : a = b := by
  -- Neither comes first, so kind and name are equal, and with the parent so is the path.
  have hkind : a.isDirectory = b.isDirectory := by
    by_cases h : a.isDirectory = b.isDirectory
    · exact h
    · rw [precedes_of_ne h] at hab
      rw [precedes_of_ne (Ne.symm h)] at hba
      rw [hab, hba]
  rw [precedes_iff hkind, List.not_lt] at hab
  rw [precedes_iff hkind.symm, List.not_lt] at hba
  have hname : a.name = b.name := List.le_antisymm hab hba
  obtain ⟨names, hne, hn, hpath, hlast⟩ := ha
  obtain ⟨names', hne', hn', hpath', hlast'⟩ := hb
  have habove : names.dropLast = names'.dropLast := by
    refine Path.ofSegments_injective (fun s hs => hn s (List.dropLast_subset _ hs))
      (fun s hs => hn' s (List.dropLast_subset _ hs)) ?_
    simpa [Path.parentAndName, hpath, hpath', Path.segments_ofSegments hn,
      Path.segments_ofSegments hn'] using hparent
  have hlasts : names.getLast hne = names'.getLast hne' := by
    rw [hlast, hlast', List.getLastD_eq_getLast?, List.getLastD_eq_getLast?,
      List.getLast?_eq_some_getLast hne, List.getLast?_eq_some_getLast hne'] at hname
    exact hname
  have hnames : names = names' := by
    rw [← List.dropLast_concat_getLast hne, ← List.dropLast_concat_getLast hne', habove, hlasts]
  cases a
  cases b
  simp_all

end StoreEntry

theorem Command.ordered_childrenOf_perm {es es' : List StoreEntry} (h : es.Perm es')
    (hplaced : ∀ e ∈ es, e.Placed) (directory : Text) :
    ordered (childrenOf directory es) = ordered (childrenOf directory es') := by
  have hsorted (l : List StoreEntry) : (ordered l).Pairwise fun a b => a.precedes b = true :=
    @List.pairwise_mergeSort _ StoreEntry.precedes (fun _ _ _ => StoreEntry.precedes_trans)
      StoreEntry.precedes_total l
  have hperm : (ordered (childrenOf directory es)).Perm (ordered (childrenOf directory es')) :=
    (List.mergeSort_perm _ _).trans ((h.filter _).trans (List.mergeSort_perm _ _).symm)
  refine List.Perm.eq_of_pairwise ?_ (hsorted _) (hsorted _) hperm
  have hchild {l : List StoreEntry} {e : StoreEntry} (he : e ∈ ordered (childrenOf directory l)) :
      e ∈ l ∧ (Path.parentAndName e.path).1 = directory := by
    simpa [childrenOf] using (List.mem_mergeSort.mp he : e ∈ childrenOf directory l)
  intro a b ha hb hab hba
  obtain ⟨ha, hparent⟩ := hchild ha
  obtain ⟨hb, hparent'⟩ := hchild hb
  exact StoreEntry.eq_of_precedes (hplaced a ha) (hplaced b (h.mem_iff.mpr hb))
    (hparent.trans hparent'.symm) hab hba

end PipeShell
