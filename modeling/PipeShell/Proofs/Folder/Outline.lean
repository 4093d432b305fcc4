import PipeShell.Proofs.Folder.Arranged

/-!
# Outlines of folders

An outline has one row for each entry of a folder, depth first: what a directory holds comes directly
below it. A row knows whether it is the last one of its directory, and the same of all directories
above it.
-/

namespace PipeShell

open PipeShell.Path (IsAbove)

/-- A row of an outline: an entry with the directories above it, whether it is the last entry of its
directory, and for each directory above whether that is the last one of its own. -/
structure OutlineRow where
  above : List Text
  name : Text
  isDirectory : Bool
  guides : List Bool
  last : Bool
  deriving DecidableEq, Repr

namespace OutlineRow

/-- The path of the entry. -/
def path (r : OutlineRow) : List Text :=
  r.above ++ [r.name]

theorem path_mk (above : List Text) (name : Text) (isDirectory : Bool) (guides : List Bool)
    (last : Bool) : path ⟨above, name, isDirectory, guides, last⟩ = above ++ [name] := rfl

/-- The path of the entry and whether it is a directory. -/
def kind (r : OutlineRow) : List Text × Bool :=
  (r.path, r.isDirectory)

end OutlineRow

/-- These are the rows of an outline of the given entries below a directory. -/
structure IsOutline (root : List Text) (kinds : List (List Text × Bool)) (rows : List OutlineRow) :
    Prop where
  /-- Each entry has one row. -/
  entries : (rows.map OutlineRow.kind).Perm kinds
  distinct : (rows.map OutlineRow.path).Nodup
  depth : ∀ r ∈ rows, r.above.length = root.length + r.guides.length
  /-- No row comes before what it is below. -/
  forward : rows.Pairwise fun a b => ¬IsAbove b.path a.path
  /-- What is below an entry comes directly after it. -/
  nested : ∀ r later, r :: later <:+ rows → ∃ inside rest, later = inside ++ rest
    ∧ (∀ x ∈ inside, IsAbove r.path x.path) ∧ ∀ x ∈ rest, ¬IsAbove r.path x.path
  siblings : rows.Pairwise fun a b => a.above = b.above →
    ListedBefore (a.name, a.isDirectory) (b.name, b.isDirectory)
  last : ∀ r later, r :: later <:+ rows → (r.last = true ↔ ∀ x ∈ later, x.above ≠ r.above)

theorem suffix_append_cases {α : Type} {a : α} {later as bs : List α} (h : a :: later <:+ as ++ bs) :
    (∃ middle, a :: middle <:+ as ∧ later = middle ++ bs) ∨ a :: later <:+ bs := by
  obtain ⟨front, h⟩ := h
  rcases List.append_eq_append_iff.mp h with ⟨middle, rfl, hbs⟩ | ⟨middle, rfl, hbs⟩
  · cases middle with
    | nil => exact .inr ⟨[], by simpa using hbs⟩
    | cons b middle =>
        obtain ⟨rfl, rfl⟩ := List.cons.inj hbs
        exact .inl ⟨middle, ⟨front, rfl⟩, rfl⟩
  · exact .inr ⟨middle, hbs.symm⟩

@[simp] theorem Path.isAbove_append {above p q : List Text} :
    IsAbove (above ++ p) (above ++ q) ↔ IsAbove p q := by
  induction above with
  | nil => rfl
  | cons name above ih => simp [ih]

namespace Folder

variable {α : Type} {admits : Text → Prop} {f rest inside : Folder α} {name : Text}
  {above : List Text} {guides : List Bool} {r : OutlineRow}

/-- The folder has no entries. -/
def isEmpty : Folder α → Bool
  | empty => true
  | _ => false

/-- The rows of the entries of a folder below some directories, in the order of the entries. -/
def rows (above : List Text) (guides : List Bool) : Folder α → List OutlineRow
  | empty => []
  | file name _ rest => ⟨above, name, false, guides, rest.isEmpty⟩ :: rows above guides rest
  | folder name inside rest =>
      ⟨above, name, true, guides, rest.isEmpty⟩
        :: (rows (above ++ [name]) (guides ++ [rest.isEmpty]) inside ++ rows above guides rest)

theorem map_kind_rows (f : Folder α) (above : List Text) (guides : List Bool) :
    (f.rows above guides).map OutlineRow.kind
      = f.kinds.map fun e => (above ++ e.1, e.2) := by
  have hentries : (f.rows above guides).map OutlineRow.kind
      = (f.entriesUnder above).map fun e => (e.1, e.2.isNone) := by
    induction f generalizing above guides with
    | empty => rfl
    | file name content rest ih => rw [rows, entriesUnder, List.map_cons, ih]; rfl
    | folder name inside rest ihi ih =>
        rw [rows, entriesUnder, List.map_cons, List.map_append, ihi, ih, List.map_cons,
          List.map_append]
        rfl
  rw [hentries, entriesUnder_append, List.map_map, kinds, List.map_map]
  rfl

theorem exists_of_mem_rows (hf : f.Tidy admits) (h : r ∈ f.rows above guides) :
    ∃ m q, r.path = above ++ m :: q ∧ f.child? m ≠ none := by
  have hmem : r.kind ∈ f.kinds.map fun e => (above ++ e.1, e.2) := by
    rw [← map_kind_rows f above guides]
    exact List.mem_map_of_mem h
  obtain ⟨⟨path, kind⟩, he, heq⟩ := List.mem_map.mp hmem
  obtain ⟨hne, hb⟩ := (mem_kinds hf).mp he
  obtain ⟨m, q, rfl⟩ := List.exists_cons_of_ne_nil hne
  refine ⟨m, q, congrArg Prod.fst heq.symm, fun hnone => ?_⟩
  rw [binding?_of_child?_eq_none hnone] at hb
  cases hb

theorem prefix_above {f : Folder α} (h : r ∈ f.rows above guides) : above <+: r.above := by
  induction f generalizing above guides with
  | empty => cases h
  | file name content rest ih =>
      rcases List.mem_cons.mp h with rfl | h
      · exact List.prefix_rfl
      · exact ih h
  | folder name inside rest ihi ih =>
      rcases List.mem_cons.mp h with rfl | h
      · exact List.prefix_rfl
      · rcases List.mem_append.mp h with h | h
        · exact (List.prefix_append _ _).trans (ihi h)
        · exact ih h

theorem exists_path_of_free (hrest : rest.Tidy admits) (hfree : rest.child? name = none)
    (h : r ∈ rest.rows above guides) : ∃ m q, r.path = above ++ m :: q ∧ name ≠ m := by
  obtain ⟨m, q, hpath, hm⟩ := exists_of_mem_rows hrest h
  refine ⟨m, q, hpath, ?_⟩
  rintro rfl
  exact hm hfree

theorem not_prefix_of_free (hrest : rest.Tidy admits) (hfree : rest.child? name = none)
    (h : r ∈ rest.rows above guides) : ¬above ++ [name] <+: r.above := by
  intro hprefix
  obtain ⟨m, q, hpath, hm⟩ := exists_path_of_free hrest hfree h
  have hprefix' : above ++ [name] <+: above ++ m :: q := by
    rw [← hpath]
    exact hprefix.trans (List.prefix_append _ _)
  exact hm (List.cons_prefix_cons.mp ((List.prefix_append_right_inj above).mp hprefix')).1

theorem above_ne_of_inside {f : Folder α} {guides : List Bool}
    (h : r ∈ f.rows (above ++ [name]) guides) : r.above ≠ above := by
  intro heq
  have hlength := (prefix_above h).length_le
  rw [heq, List.length_append, List.length_singleton] at hlength
  omega

theorem length_above {depth : Nat} (h : above.length = depth + guides.length) :
    ∀ r ∈ f.rows above guides, r.above.length = depth + r.guides.length := by
  induction f generalizing above guides with
  | empty => simp [rows]
  | file name content rest ih => exact List.forall_mem_cons.mpr ⟨h, ih h⟩
  | folder name inside rest ihi ih =>
      refine List.forall_mem_cons.mpr ⟨h, fun r hr => ?_⟩
      rcases List.mem_append.mp hr with hr | hr
      · exact ihi (by simp [h, Nat.add_assoc]) r hr
      · exact ih h r hr

/-- What is below an entry comes directly after it. -/
theorem nested_rows (hf : f.Tidy admits) {later : List OutlineRow}
    (h : r :: later <:+ f.rows above guides) : ∃ inside rest, later = inside ++ rest
      ∧ (∀ x ∈ inside, IsAbove r.path x.path) ∧ ∀ x ∈ rest, ¬IsAbove r.path x.path := by
  induction f generalizing above guides later with
  | empty => simp [rows] at h
  | file name content rest ih =>
      obtain ⟨-, hfree, hrest⟩ := hf
      rcases List.suffix_cons_iff.mp h with heq | h
      · obtain ⟨rfl, rfl⟩ := List.cons.inj heq
        refine ⟨[], _, rfl, by simp, fun x hx => ?_⟩
        obtain ⟨m, q, hpath, hm⟩ := exists_path_of_free hrest hfree hx
        rw [OutlineRow.path_mk, hpath]
        simp [hm]
      · exact ih hrest h
  | folder name inside rest ihi ih =>
      obtain ⟨-, hfree, hinside, hrest⟩ := hf
      rcases List.suffix_cons_iff.mp h with heq | h
      · obtain ⟨rfl, rfl⟩ := List.cons.inj heq
        refine ⟨_, _, rfl, fun x hx => ?_, fun x hx => ?_⟩
        · obtain ⟨m, q, hpath, -⟩ := exists_of_mem_rows hinside hx
          rw [OutlineRow.path_mk, hpath]
          simp
        · obtain ⟨m, q, hpath, hm⟩ := exists_path_of_free hrest hfree hx
          rw [OutlineRow.path_mk, hpath]
          simp [hm]
      · rcases suffix_append_cases h with ⟨middle, hmiddle, rfl⟩ | h
        -- The row is inside: what comes after the inside has another first name.
        · obtain ⟨below, others, rfl, hbelow, hothers⟩ := ihi hinside hmiddle
          refine ⟨below, others ++ _, List.append_assoc _ _ _, hbelow, fun x hx => ?_⟩
          rcases List.mem_append.mp hx with hx | hx
          · exact hothers x hx
          · obtain ⟨m, q, hpath, -⟩ := exists_of_mem_rows hinside (hmiddle.mem List.mem_cons_self)
            obtain ⟨m', q', hpath', hm'⟩ := exists_path_of_free hrest hfree hx
            simp [hpath, hpath', hm']
        · exact ih hrest h

theorem child?_of_mem_rows (hf : f.Tidy admits) (h : r ∈ f.rows above guides)
    (habove : r.above = above) : ∃ n, f.child? r.name = some n ∧ n.isFolder = r.isDirectory := by
  induction f with
  | empty => cases h
  | file name content rest ih =>
      obtain ⟨-, hfree, hrest⟩ := hf
      rcases List.mem_cons.mp h with rfl | h
      · exact ⟨.file content, by simp [child?], rfl⟩
      · obtain ⟨n, hn, hkind⟩ := ih hrest h
        exact ⟨n, child?_add_of_free (.file content) hfree hn, hkind⟩
  | folder name inside rest _ ih =>
      obtain ⟨-, hfree, -, hrest⟩ := hf
      rcases List.mem_cons.mp h with rfl | h
      · exact ⟨.folder inside, by simp [child?], rfl⟩
      · rcases List.mem_append.mp h with h | h
        · exact absurd habove (above_ne_of_inside h)
        · obtain ⟨n, hn, hkind⟩ := ih hrest h
          exact ⟨n, child?_add_of_free (.folder inside) hfree hn, hkind⟩

theorem siblings_rows (hf : f.Tidy admits) (ho : f.Ordered) :
    (f.rows above guides).Pairwise fun a b => a.above = b.above →
      ListedBefore (a.name, a.isDirectory) (b.name, b.isDirectory) := by
  induction f generalizing above guides with
  | empty => exact .nil
  | file name content rest ih =>
      obtain ⟨-, -, hrest⟩ := hf
      obtain ⟨hfirst, ho⟩ := ho
      refine List.pairwise_cons.mpr ⟨fun x hx habove => ?_, ih hrest ho⟩
      obtain ⟨n, hn, hkind⟩ := child?_of_mem_rows hrest hx habove.symm
      exact hkind ▸ hfirst x.name n hn
  | folder name inside rest ihi ih =>
      obtain ⟨-, hfree, hinside, hrest⟩ := hf
      obtain ⟨hfirst, hoi, ho⟩ := ho
      refine List.pairwise_cons.mpr ⟨fun x hx habove => ?_,
        List.pairwise_append.mpr ⟨ihi hinside hoi, ih hrest ho, fun a ha b hb habove => ?_⟩⟩
      · rcases List.mem_append.mp hx with hx | hx
        · exact absurd habove.symm (above_ne_of_inside hx)
        · obtain ⟨n, hn, hkind⟩ := child?_of_mem_rows hrest hx habove.symm
          exact hkind ▸ hfirst x.name n hn
      · exact absurd (habove ▸ prefix_above ha) (not_prefix_of_free hrest hfree hb)

theorem isEmpty_iff {f : Folder α} :
    f.isEmpty = true ↔ ∀ x ∈ f.rows above guides, x.above ≠ above := by
  cases f <;> simp [isEmpty, rows]

/-- A row is the last one of its directory when no later row stands there. -/
theorem last_rows (hf : f.Tidy admits) {later : List OutlineRow}
    (h : r :: later <:+ f.rows above guides) :
    r.last = true ↔ ∀ x ∈ later, x.above ≠ r.above := by
  induction f generalizing above guides later with
  | empty => simp [rows] at h
  | file name content rest ih =>
      obtain ⟨-, -, hrest⟩ := hf
      rcases List.suffix_cons_iff.mp h with heq | h
      · obtain ⟨rfl, rfl⟩ := List.cons.inj heq
        exact isEmpty_iff
      · exact ih hrest h
  | folder name inside rest ihi ih =>
      obtain ⟨-, hfree, hinside, hrest⟩ := hf
      rcases List.suffix_cons_iff.mp h with heq | h
      · obtain ⟨rfl, rfl⟩ := List.cons.inj heq
        rw [List.forall_mem_append]
        exact isEmpty_iff.trans (and_iff_right fun x hx => above_ne_of_inside hx).symm
      · rcases suffix_append_cases h with ⟨middle, hmiddle, rfl⟩ | h
        · have hprefix := prefix_above (hmiddle.mem List.mem_cons_self)
          rw [ihi hinside hmiddle, List.forall_mem_append]
          refine (and_iff_left fun x hx habove => ?_).symm
          exact not_prefix_of_free hrest hfree hx (habove ▸ hprefix)
        · exact ih hrest h

theorem isOutline_rows (hf : f.Tidy admits) (ho : f.Ordered) (above : List Text) :
    IsOutline above (f.kinds.map fun e => (above ++ e.1, e.2)) (f.rows above []) := by
  have hpaths : (f.rows above []).map OutlineRow.path
      = (f.entries.map Prod.fst).map fun path => above ++ path := by
    have hkinds := congrArg (List.map Prod.fst) (map_kind_rows f above [])
    simpa [kinds, Function.comp_def, OutlineRow.kind] using hkinds
  have hdistinct : ((f.rows above []).map OutlineRow.path).Nodup := by
    rw [hpaths]
    exact (nodup_entriesUnder hf).map fun _ _ => List.append_cancel_left
  have hforward : ((f.rows above []).map OutlineRow.path).Pairwise fun p q => ¬IsAbove q p := by
    rw [hpaths, List.pairwise_map, List.pairwise_map]
    exact (pairwise_entries hf).imp fun h => mt Path.isAbove_append.mp h
  exact ⟨.of_eq (map_kind_rows f above []), hdistinct, length_above rfl,
    List.pairwise_map.mp hforward, fun _ _ => nested_rows hf, siblings_rows hf ho,
    fun _ _ => last_rows hf⟩

/-- The rows of the folder itself are about its own entries, in their order. -/
theorem filter_rows (f : Folder α) (above : List Text) (guides : List Bool) :
    ((f.rows above guides).filter fun r => r.above = above).map OutlineRow.kind
      = f.children.map fun c => (above ++ [c.1], c.2) := by
  induction f with
  | empty => rfl
  | file name content rest ih =>
      rw [rows, List.filter_cons_of_pos (by simp), List.map_cons, ih]
      rfl
  | folder name inside rest _ ih =>
      have hdeep : (inside.rows (above ++ [name]) (guides ++ [rest.isEmpty])).filter
          (fun r => r.above = above) = [] :=
        List.filter_eq_nil_iff.mpr fun r hr => by simpa using above_ne_of_inside hr
      rw [rows, List.filter_cons_of_pos (by simp), List.filter_append, hdeep, List.nil_append,
        List.map_cons, ih]
      rfl

/-! ## Visits -/

variable {β : Type} {item : OutlineRow → β}

theorem isEmpty_eq_decide (f : Folder α) {n total : Nat} (h : n + f.children.length = total) :
    f.isEmpty = decide (n = total) := by
  subst h
  cases f <;> simp [isEmpty, children]

theorem length_kinds_lt (h : f.child? name = some (.folder inside)) :
    inside.kinds.length < f.kinds.length := by
  induction f with
  | empty => simp [child?] at h
  | file m content rest ih =>
      rw [child?] at h
      split at h
      · cases h
      · have hlt := ih h
        simp only [kinds, List.length_map, entries_file, List.length_cons] at hlt ⊢
        omega
  | folder m other rest _ ih =>
      rw [child?] at h
      simp only [kinds, List.length_map, entries_folder, List.length_cons, List.length_append]
      split at h
      · obtain rfl : other = inside := by simpa using h
        omega
      · have hlt := ih h
        simp only [kinds, List.length_map] at hlt
        omega

/-- An item of each entry, followed by the items of what the entry holds, are the items of the
rows. The entries count from `n` on and the last one has the number `total`. -/
theorem flatMap_children (below : Text → Bool → List β) {n total : Nat}
    (hf : f.Tidy admits) (hn : n + f.children.length = total + 1)
    (hbelow : ∀ name inside last, f.child? name = some (.folder inside) →
      below name last = (inside.rows (above ++ [name]) (guides ++ [last])).map item) :
    ((f.children.zipIdx n).flatMap fun (c, n) =>
        item ⟨above, c.1, c.2, guides, n = total⟩ :: if c.2 then below c.1 (n = total) else [])
      = (f.rows above guides).map item := by
  induction f generalizing n with
  | empty => rfl
  | file name content rest ih =>
      obtain ⟨-, hfree, hrest⟩ := hf
      have hn' : n + 1 + rest.children.length = total + 1 := by
        rw [children, List.length_cons] at hn
        omega
      have hlast : rest.isEmpty = decide (n = total) := rest.isEmpty_eq_decide (by omega)
      have hrows := ih hrest hn' fun m sub last hsub =>
        hbelow m sub last (child?_add_of_free (.file content) hfree hsub)
      rw [children, List.zipIdx_cons, List.flatMap_cons, hrows, rows, hlast]
      rfl
  | folder name inside rest _ ih =>
      obtain ⟨-, hfree, -, hrest⟩ := hf
      have hn' : n + 1 + rest.children.length = total + 1 := by
        rw [children, List.length_cons] at hn
        omega
      have hlast : rest.isEmpty = decide (n = total) := rest.isEmpty_eq_decide (by omega)
      have hrows := ih hrest hn' fun m sub last hsub =>
        hbelow m sub last (child?_add_of_free (.folder inside) hfree hsub)
      have hinside := hbelow name inside (n = total) (by rw [child?, if_pos rfl])
      rw [children, List.zipIdx_cons, List.flatMap_cons, hrows, rows, hlast, List.map_cons,
        List.map_append, ← hinside]
      rfl

/-- A visit that shows an item of each entry, and goes into the directories, shows the items of all
rows. -/
theorem eq_map_rows (item : OutlineRow → β) (visit : Nat → List Text → List Bool → List β)
    (above : List Text) {root : Folder α} (hroot : root.Tidy admits)
    (hvisit : ∀ fuel path guides inside, root.node? path = some (.folder inside) →
      visit (fuel + 1) path guides = (inside.children.zipIdx 1).flatMap fun (c, n) =>
        item ⟨above ++ path, c.1, c.2, guides, n = inside.children.length⟩
          :: if c.2 then
              visit fuel (path ++ [c.1]) (guides ++ [decide (n = inside.children.length)])
            else [])
    {fuel : Nat} {path : List Text} (h : root.node? path = some (.folder inside))
    (hfuel : inside.kinds.length < fuel) :
    visit fuel path guides = (inside.rows (above ++ path) guides).map item := by
  -- One step goes along the entries of one directory, and each step down uses up fuel.
  induction fuel generalizing path guides inside with
  | zero => omega
  | succ fuel ih =>
      rw [hvisit fuel path guides inside h]
      refine flatMap_children
        (fun name last => visit fuel (path ++ [name]) (guides ++ [last])) (hroot.node h)
        (Nat.add_comm _ _) fun name sub last hsub => ?_
      have hnode : root.node? (path ++ [name]) = some (.folder sub) := by
        rw [node?_append, h]
        exact (node?_cons name [] inside).trans (by rw [hsub]; rfl)
      have hlt := length_kinds_lt hsub
      rw [ih hnode (by omega), List.append_assoc]

end Folder

end PipeShell
