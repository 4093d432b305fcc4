import Mathlib.Data.List.Nodup
import PipeShell.Proofs.Folder.Alter

/-!
# Entries and bindings

The entries of a tidy folder are the bindings of its paths, each of them once. So two folders that
bind the same paths have the same entries, if in another order.
-/

namespace PipeShell

variable {α β : Type} {admits : Text → Prop}

/-- The content of a file; a directory has none. -/
def Binding.content? : Binding α → Option α
  | .directory => none
  | .file content => some content

@[simp] theorem Binding.content?_eq_none {b : Binding α} : b.content? = none ↔ b = .directory := by
  cases b <;> simp [content?]

theorem Binding.isNone_content?_eq_false {b : Binding α} :
    b.content?.isNone = false ↔ ∃ content, b = .file content := by
  cases b <;> simp [content?]

/-- The binding with another content, if it is a file's. -/
def Binding.map (g : α → β) : Binding α → Binding β
  | .directory => .directory
  | .file content => .file (g content)

@[simp] theorem Binding.content?_map (g : α → β) (b : Binding α) :
    (b.map g).content? = b.content?.map g := by
  cases b <;> rfl

namespace Folder

variable {f rest inside : Folder α} {name m : Text} {path above : List Text} {content : α}

theorem binding?_file_cons :
    (file name content rest).binding? (m :: path)
      = if name = m then if path = [] then some (.file content) else none
        else rest.binding? (m :: path) := by
  by_cases hm : name = m
  · by_cases hp : path = [] <;> simp [binding?, node?_cons, child?, hm, hp, Node.at?]
  · simp [binding?, node?_cons, child?, hm]

theorem binding?_folder_cons :
    (folder name inside rest).binding? (m :: path)
      = if name = m then inside.binding? path else rest.binding? (m :: path) := by
  by_cases hm : name = m <;> simp [binding?, node?_cons, child?, hm, Node.at?]

theorem binding?_of_child?_eq_none (h : f.child? name = none) (path : List Text) :
    f.binding? (name :: path) = none := by
  simp [binding?, node?_cons, h]

/-- A path that starts with another name than the entry in front is bound by the rest. -/
theorem exists_cons_of_binding? {b : Binding α} (hname : f.child? name = none) (hne : path ≠ [])
    (h : f.binding? path = some b) : ∃ m q, path = m :: q ∧ name ≠ m := by
  cases path with
  | nil => exact absurd rfl hne
  | cons m q =>
      refine ⟨m, q, rfl, ?_⟩
      rintro rfl
      rw [binding?_of_child?_eq_none hname] at h
      cases h

theorem mem_entriesUnder (hf : f.Tidy admits) {e : List Text × Option α} :
    e ∈ f.entriesUnder above
      ↔ ∃ path b, path ≠ [] ∧ f.binding? path = some b ∧ e = (above ++ path, b.content?) := by
  induction f generalizing above with
  | empty => simp [entriesUnder, binding?_empty]
  | file name content rest ih =>
      obtain ⟨-, hname, hrest⟩ := hf
      rw [entriesUnder, List.mem_cons, ih hrest]
      -- A path starts with the name in front, or it is bound by the rest, and never both.
      constructor
      · rintro (rfl | ⟨path, b, hne, hb, rfl⟩)
        · exact ⟨[name], .file content, by simp, by simp [binding?_file_cons], rfl⟩
        · obtain ⟨m, q, rfl, hm⟩ := exists_cons_of_binding? hname hne hb
          exact ⟨m :: q, b, hne, by rw [binding?_file_cons, if_neg hm, hb], rfl⟩
      · rintro ⟨path, b, hne, hb, rfl⟩
        cases path with
        | nil => exact absurd rfl hne
        | cons m q =>
            rw [binding?_file_cons] at hb
            by_cases hm : name = m
            · subst hm
              by_cases hq : q = []
              · subst hq
                obtain rfl : Binding.file content = b := by simpa using hb
                exact .inl rfl
              · simp [hq] at hb
            · rw [if_neg hm] at hb
              exact .inr ⟨m :: q, b, hne, hb, rfl⟩
  | folder name inside rest ihi ih =>
      obtain ⟨-, hname, hinside, hrest⟩ := hf
      rw [entriesUnder, List.mem_cons, List.mem_append, ihi hinside, ih hrest]
      constructor
      · rintro (rfl | ⟨path, b, hne, hb, rfl⟩ | ⟨path, b, hne, hb, rfl⟩)
        · exact ⟨[name], .directory, by simp, by simp [binding?_folder_cons], rfl⟩
        · exact ⟨name :: path, b, by simp, by simp [binding?_folder_cons, hb], by simp⟩
        · obtain ⟨m, q, rfl, hm⟩ := exists_cons_of_binding? hname hne hb
          exact ⟨m :: q, b, hne, by rw [binding?_folder_cons, if_neg hm, hb], rfl⟩
      · rintro ⟨path, b, hne, hb, rfl⟩
        cases path with
        | nil => exact absurd rfl hne
        | cons m q =>
            rw [binding?_folder_cons] at hb
            by_cases hm : name = m
            · subst hm
              rw [if_pos rfl] at hb
              by_cases hq : q = []
              · subst hq
                obtain rfl : Binding.directory = b := by simpa using hb
                exact .inl rfl
              · exact .inr (.inl ⟨q, b, hq, hb, by simp⟩)
            · rw [if_neg hm] at hb
              exact .inr (.inr ⟨m :: q, b, hne, hb, rfl⟩)

theorem Tidy.admits_of_bound (hf : f.Tidy admits) (h : f.binding? path ≠ none) :
    ∀ s ∈ path, admits s := by
  by_cases hne : path = []
  · simp [hne]
  · obtain ⟨b, hb⟩ := Option.ne_none_iff_exists'.mp h
    have he : (path, b.content?) ∈ f.entriesUnder [] :=
      (mem_entriesUnder hf).mpr ⟨path, b, hne, hb, rfl⟩
    obtain ⟨below, rfl, hadmits⟩ := hf.entriesUnder he
    exact hadmits

theorem nodup_entriesUnder (hf : f.Tidy admits) :
    ((f.entriesUnder above).map Prod.fst).Nodup := by
  induction f generalizing above with
  | empty => simp [entriesUnder]
  | file name content rest ih =>
      obtain ⟨-, hname, hrest⟩ := hf
      rw [entriesUnder, List.map_cons, List.nodup_cons]
      refine ⟨?_, ih hrest⟩
      intro hmem
      obtain ⟨e, he, heq⟩ := List.mem_map.mp hmem
      obtain ⟨path, b, hne, hb, rfl⟩ := (mem_entriesUnder hrest).mp he
      obtain ⟨m, q, rfl, hm⟩ := exists_cons_of_binding? hname hne hb
      have hpath : m :: q = [name] := List.append_cancel_left heq
      simp [Ne.symm hm] at hpath
  | folder name inside rest ihi ih =>
      obtain ⟨-, hname, hinside, hrest⟩ := hf
      rw [entriesUnder, List.map_cons, List.nodup_cons, List.map_append, List.nodup_append]
      refine ⟨?_, ihi hinside, ih hrest, ?_⟩
      · intro hmem
        rcases List.mem_append.mp hmem with hmem | hmem
        · obtain ⟨e, he, heq⟩ := List.mem_map.mp hmem
          obtain ⟨path, b, hne, hb, rfl⟩ := (mem_entriesUnder hinside).mp he
          simp [hne] at heq
        · obtain ⟨e, he, heq⟩ := List.mem_map.mp hmem
          obtain ⟨path, b, hne, hb, rfl⟩ := (mem_entriesUnder hrest).mp he
          obtain ⟨m, q, rfl, hm⟩ := exists_cons_of_binding? hname hne hb
          have hpath : m :: q = [name] := List.append_cancel_left heq
          simp [Ne.symm hm] at hpath
      · intro p hp q hq heq
        obtain ⟨e, he, rfl⟩ := List.mem_map.mp hp
        obtain ⟨e', he', rfl⟩ := List.mem_map.mp hq
        obtain ⟨path, b, hne, hb, rfl⟩ := (mem_entriesUnder hinside).mp he
        obtain ⟨path', b', hne', hb', rfl⟩ := (mem_entriesUnder hrest).mp he'
        obtain ⟨m, q, rfl, hm⟩ := exists_cons_of_binding? hname hne' hb'
        have hpath : name :: path = m :: q := by simpa using heq
        exact hm (List.cons_eq_cons.mp hpath).1

theorem entriesUnder_append (f : Folder α) (above : List Text) :
    f.entriesUnder above = f.entries.map fun e => (above ++ e.1, e.2) := by
  have hall (here : List Text) : f.entriesUnder (above ++ here)
      = (f.entriesUnder here).map fun e => (above ++ e.1, e.2) := by
    induction f generalizing here with
    | empty => rfl
    | file name content rest ih => simp [entriesUnder, ih]
    | folder name inside rest ihi ih => simp [entriesUnder, ih, ← ihi]
  rw [entries, ← hall, List.append_nil]

/-! ## Kinds -/

/-- The paths of all entries, and whether they are directories. -/
def kinds (f : Folder α) : List (List Text × Bool) :=
  f.entries.map fun e => (e.1, e.2.isNone)

theorem mem_kinds (hf : f.Tidy admits) {e : List Text × Bool} :
    e ∈ f.kinds ↔ e.1 ≠ [] ∧ (f.binding? e.1).map (·.content?.isNone) = some e.2 := by
  constructor
  · intro he
    obtain ⟨e', he', rfl⟩ := List.mem_map.mp he
    obtain ⟨path, b, hne, hb, rfl⟩ := (mem_entriesUnder hf).mp he'
    exact ⟨hne, by rw [List.nil_append, hb]; rfl⟩
  · rintro ⟨hne, hb⟩
    obtain ⟨b, hb, hkind⟩ := Option.map_eq_some_iff.mp hb
    refine List.mem_map.mpr ⟨_, (mem_entriesUnder hf).mpr ⟨e.1, b, hne, hb, rfl⟩, ?_⟩
    exact Prod.ext rfl hkind

theorem nodup_kinds (hf : f.Tidy admits) : f.kinds.Nodup := by
  refine List.Nodup.of_map Prod.fst ?_
  rw [kinds, List.map_map]
  exact nodup_entriesUnder hf

/-- Folders that bind the same paths alike have the same entries but for their order. -/
theorem kinds_perm {g : Folder β} {admits' : Text → Prop} (hf : f.Tidy admits) (hg : g.Tidy admits')
    (h : ∀ path, (f.binding? path).map (·.content?.isNone)
      = (g.binding? path).map (·.content?.isNone)) : f.kinds.Perm g.kinds := by
  refine (List.perm_ext_iff_of_nodup (nodup_kinds hf) (nodup_kinds hg)).mpr fun e => ?_
  rw [mem_kinds hf, mem_kinds hg, h]

theorem binding?_of_folder (h : f.node? path = some (.folder inside)) (q : List Text) :
    f.binding? (path ++ q) = inside.binding? q := by
  rw [binding?, node?_append, h]
  rfl

end Folder

end PipeShell
