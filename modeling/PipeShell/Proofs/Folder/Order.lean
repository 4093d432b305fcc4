import PipeShell.Proofs.Folder.Entries

/-!
# The order of entries

The entries of a folder go from each directory to what it holds before they go on. So what stands
above an entry comes before it, and the entries of a directory are those below its path.
-/

namespace PipeShell

/-- The path leads to a directory on the way to another path. -/
def Path.IsAbove (above path : List Text) : Prop :=
  above <+: path ∧ above ≠ path

namespace Path

variable {above path : List Text} {name other : Text}

instance (above path : List Text) : Decidable (IsAbove above path) :=
  inferInstanceAs (Decidable (_ ∧ _))

theorem isAbove_iff_append : IsAbove above path ↔ ∃ below, below ≠ [] ∧ path = above ++ below := by
  constructor
  · rintro ⟨⟨below, rfl⟩, hne⟩
    exact ⟨below, by simpa using hne, rfl⟩
  · rintro ⟨below, hne, rfl⟩
    exact ⟨List.prefix_append _ _, by simpa using hne⟩

@[simp] theorem isAbove_cons :
    IsAbove (name :: above) (other :: path) ↔ name = other ∧ IsAbove above path := by
  simp only [IsAbove, List.cons_prefix_cons, ne_eq, List.cons.injEq]
  grind

@[simp] theorem isAbove_nil : IsAbove [] path ↔ path ≠ [] := by
  simp [IsAbove, eq_comm]

@[simp] theorem not_isAbove_nil : ¬IsAbove above [] := by
  simp [IsAbove]

end Path

namespace Folder

open PipeShell.Path

variable {α : Type} {admits : Text → Prop} {f rest inside : Folder α} {path : List Text}
  {name : Text} {content : α}

theorem entries_file : (file name content rest).entries = ([name], some content) :: rest.entries :=
  rfl

theorem entries_folder : (folder name inside rest).entries
    = ([name], none) :: (inside.entries.map (fun e => (name :: e.1, e.2)) ++ rest.entries) := by
  rw [entries, entriesUnder, List.nil_append, entriesUnder_append]
  rfl

theorem mem_entries (hf : f.Tidy admits) {e : List Text × Option α} :
    e ∈ f.entries ↔ e.1 ≠ [] ∧ (f.binding? e.1).map Binding.content? = some e.2 := by
  rw [entries, mem_entriesUnder hf]
  constructor
  · rintro ⟨path, b, hne, hb, rfl⟩
    exact ⟨hne, by simp [hb]⟩
  · rintro ⟨hne, hb⟩
    obtain ⟨b, hb, hcontent⟩ := Option.map_eq_some_iff.mp hb
    exact ⟨e.1, b, hne, hb, by simp [hcontent]⟩

theorem exists_cons_of_mem_entries (hf : f.Tidy admits) (hname : f.child? name = none)
    {e : List Text × Option α} (he : e ∈ f.entries) : ∃ m q, e.1 = m :: q ∧ name ≠ m := by
  obtain ⟨hne, hb⟩ := (mem_entries hf).mp he
  obtain ⟨b, hb, -⟩ := Option.map_eq_some_iff.mp hb
  exact exists_cons_of_binding? hname hne hb

/-! ## What comes before an entry -/

/-- No entry stands above an earlier one. -/
theorem pairwise_entries (hf : f.Tidy admits) :
    f.entries.Pairwise fun a b => ¬IsAbove b.1 a.1 := by
  -- Two entries are in one of these places: the first in front, below it, or behind it.
  induction f with
  | empty => exact List.Pairwise.nil
  | file name content rest ih =>
      obtain ⟨-, hname, hrest⟩ := hf
      rw [entries_file, List.pairwise_cons]
      refine ⟨fun e he => ?_, ih hrest⟩
      obtain ⟨m, q, hpath, hm⟩ := exists_cons_of_mem_entries hrest hname he
      simp [hpath]
  | folder name inside rest ihi ih =>
      obtain ⟨-, hname, hinside, hrest⟩ := hf
      have hother {e : List Text × Option α} (he : e ∈ rest.entries) (path : List Text) :
          ¬IsAbove e.1 (name :: path) := by
        obtain ⟨m, q, hpath, hm⟩ := exists_cons_of_mem_entries hrest hname he
        simp [hpath, Ne.symm hm]
      rw [entries_folder, List.pairwise_cons, List.pairwise_append, List.pairwise_map]
      refine ⟨?_, ?_, ih hrest, ?_⟩
      · intro e he
        rcases List.mem_append.mp he with he | he
        · obtain ⟨e, -, rfl⟩ := List.mem_map.mp he
          simp
        · exact hother he []
      · exact (ihi hinside).imp fun h => by simpa using h
      · intro a ha b hb
        obtain ⟨a, -, rfl⟩ := List.mem_map.mp ha
        exact hother hb a.1

/-- What stands above an entry is a directory that comes before it. -/
theorem above_mem_front (hf : f.Tidy admits) {front back : List (List Text × Option α)}
    {e : List Text × Option α} (h : f.entries = front ++ e :: back) {above : List Text}
    (hne : above ≠ []) (ha : IsAbove above e.1) : (above, none) ∈ front := by
  have hmem : (above, none) ∈ f.entries := by
    have he : e ∈ f.entries := by simp [h]
    obtain ⟨-, hb⟩ := (mem_entries hf).mp he
    obtain ⟨b, hb, -⟩ := Option.map_eq_some_iff.mp hb
    obtain ⟨below, hbelow, hpath⟩ := isAbove_iff_append.mp ha
    rw [hpath] at hb
    exact (mem_entries hf).mpr ⟨hne, by rw [binding?_above hbelow (by simp [hb])]; rfl⟩
  have hordered := pairwise_entries hf
  rw [h] at hmem hordered
  rcases List.mem_append.mp hmem with hfront | hrest
  · exact hfront
  · rcases List.mem_cons.mp hrest with rfl | hback
    · exact absurd rfl ha.2
    · have hlater := (List.pairwise_cons.mp (List.pairwise_append.mp hordered).2.1).1
      exact absurd ha (hlater _ hback)

/-! ## What is below a directory -/

theorem filter_entries_of_free (hf : f.Tidy admits) (hname : f.child? name = none) :
    (f.entries.filter fun e => decide (IsAbove (name :: path) e.1)) = [] := by
  refine List.filter_eq_nil_iff.mpr fun e he => ?_
  obtain ⟨m, q, hpath, hm⟩ := exists_cons_of_mem_entries hf hname he
  simp [hpath, hm]

theorem filter_entries (hf : f.Tidy admits) (h : f.node? path = some (.folder inside)) :
    (f.entries.filter fun e => decide (IsAbove path e.1))
      = inside.entries.map fun e => (path ++ e.1, e.2) := by
  induction path generalizing f with
  | nil =>
      obtain rfl : f = inside := by simpa using h
      rw [List.filter_eq_self.mpr fun e he => by simpa using ((mem_entries hf).mp he).1]
      simp
  | cons name path ih =>
      rw [node?_cons] at h
      induction f with
      | empty => simp [child?] at h
      | file m content rest ihr =>
          obtain ⟨-, hname, hrest⟩ := hf
          rw [child?] at h
          by_cases hm : m = name
          · by_cases hp : path = [] <;> simp [hm, hp, Node.at?] at h
          · rw [if_neg hm] at h
            rw [entries_file, List.filter_cons_of_neg (by simp), ihr hrest h]
      | folder m g rest _ ihr =>
          obtain ⟨-, hname, hg, hrest⟩ := hf
          rw [child?] at h
          rw [entries_folder, List.filter_cons_of_neg (by simp), List.filter_append,
            List.filter_map]
          by_cases hm : m = name
          · subst hm
            have hin : g.node? path = some (.folder inside) := by simpa [Node.at?] using h
            simp [Function.comp_def, filter_entries_of_free hrest hname, ih hg hin]
          · rw [if_neg hm] at h
            simp [Function.comp_def, Ne.symm hm, ihr hrest h]

theorem entriesUnder_eq_filter (hf : f.Tidy admits) (h : f.node? path = some (.folder inside)) :
    inside.entriesUnder path = f.entries.filter fun e => decide (IsAbove path e.1) := by
  rw [filter_entries hf h, entriesUnder_append]

end Folder

end PipeShell
