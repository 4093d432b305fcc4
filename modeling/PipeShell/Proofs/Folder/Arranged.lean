import PipeShell.Proofs.Folder.Order

/-!
# Arranged folders

A folder whose entries stand in the order of listings: directories first, and then by name, in every
directory. Arranging a tidy folder leaves all its paths bound as they are.
-/

namespace PipeShell

/-! ## The order of listings -/

/-- The first name with its kind stands before the second one: directories come first, and names of
one kind go up. -/
def ListedBefore (a b : Text × Bool) : Prop :=
  a.2 = true ∧ b.2 = false ∨ a.2 = b.2 ∧ a.1 < b.1

namespace ListedBefore

variable {a b c : Text × Bool}

instance (a b : Text × Bool) : Decidable (ListedBefore a b) :=
  inferInstanceAs (Decidable (_ ∨ _))

theorem trans (hab : ListedBefore a b) (hbc : ListedBefore b c) : ListedBefore a c := by
  rcases hab with ⟨ha, hb⟩ | ⟨hab, hlt⟩
  · rcases hbc with ⟨hb', -⟩ | ⟨hbc, -⟩
    · simp [hb] at hb'
    · exact .inl ⟨ha, hbc ▸ hb⟩
  · rcases hbc with ⟨hb, hc⟩ | ⟨hbc, hlt'⟩
    · exact .inl ⟨hab ▸ hb, hc⟩
    · exact .inr ⟨hab.trans hbc, List.lt_trans hlt hlt'⟩

theorem irrefl (a : Text × Bool) : ¬ListedBefore a a := by
  rintro (⟨ha, hb⟩ | ⟨-, hlt⟩)
  · simp [ha] at hb
  · exact List.lt_irrefl _ hlt

theorem of_not (hne : a.1 ≠ b.1) (h : ¬ListedBefore a b) : ListedBefore b a := by
  obtain ⟨name, kind⟩ := a
  obtain ⟨other, kind'⟩ := b
  have hlt (hnot : ¬name < other) : other < name := by
    by_cases hback : other < name
    · exact hback
    · exact absurd (List.le_antisymm (List.not_lt.mp hback) (List.not_lt.mp hnot)) hne
  cases kind <;> cases kind' <;> simp_all [ListedBefore]

end ListedBefore

/-! ## Arranging -/

variable {α : Type} {admits : Text → Prop}

/-- The node is a directory. -/
def Node.isFolder : Node α → Bool
  | .file _ => false
  | .folder _ => true

namespace Folder

/-- In every directory the entries stand in the order of listings. -/
def Ordered : Folder α → Prop
  | empty => True
  | file name _ rest =>
      (∀ m n, rest.child? m = some n → ListedBefore (name, false) (m, n.isFolder)) ∧ rest.Ordered
  | folder name inside rest =>
      (∀ m n, rest.child? m = some n → ListedBefore (name, true) (m, n.isFolder))
        ∧ inside.Ordered ∧ rest.Ordered

/-- The node as an entry of this name, before the entries that it stands before in a listing. -/
def place (name : Text) (n : Node α) : Folder α → Folder α
  | empty => add name n empty
  | file m content rest =>
      if ListedBefore (name, n.isFolder) (m, false) then add name n (file m content rest)
      else file m content (place name n rest)
  | folder m inside rest =>
      if ListedBefore (name, n.isFolder) (m, true) then add name n (folder m inside rest)
      else folder m inside (place name n rest)

/-- The folder with the entries of every directory in the order of listings. -/
def arrange : Folder α → Folder α
  | empty => empty
  | file name content rest => place name (.file content) (arrange rest)
  | folder name inside rest => place name (.folder (arrange inside)) (arrange rest)

end Folder

namespace Node

/-- What stands inside of the node is in the order of listings. -/
def Ordered : Node α → Prop
  | .file _ => True
  | .folder inside => inside.Ordered

/-- The node with what stands inside of it in the order of listings. -/
def arrange : Node α → Node α
  | .file content => .file content
  | .folder inside => .folder inside.arrange

end Node

namespace Folder

variable {f rest : Folder α} {name m : Text} {n : Node α}

theorem ordered_add : (add name n rest).Ordered
    ↔ (∀ m o, rest.child? m = some o → ListedBefore (name, n.isFolder) (m, o.isFolder))
      ∧ n.Ordered ∧ rest.Ordered := by
  cases n <;> simp [add, Ordered, Node.Ordered, Node.isFolder]

theorem place_add (name : Text) (n : Node α) (m : Text) (o : Node α) (rest : Folder α) :
    place name n (add m o rest)
      = if ListedBefore (name, n.isFolder) (m, o.isFolder) then add name n (add m o rest)
        else add m o (place name n rest) := by
  cases o <;> rfl

theorem child?_add_of_free (n : Node α) {o : Node α} (hfree : rest.child? name = none)
    (h : rest.child? m = some o) : (add name n rest).child? m = some o := by
  have hne : name ≠ m := by
    rintro rfl
    simp [hfree] at h
  rw [child?_add, if_neg hne, h]

theorem child?_place (hfree : f.child? name = none) (m : Text) :
    (place name n f).child? m = if name = m then some n else f.child? m := by
  induction f using entryInduction with
  | empty => simp [place]
  | add m' o rest ih =>
      rw [child?_add] at hfree
      have hne : m' ≠ name := fun h => by simp [h] at hfree
      rw [if_neg hne] at hfree
      rw [place_add]
      split
      · rw [child?_add]
      · rw [child?_add, child?_add, ih hfree]
        by_cases hm : m' = m
        · subst hm
          simp [Ne.symm hne]
        · simp [hm]

theorem tidy_place (hname : admits name) (hfree : f.child? name = none) (hn : n.Tidy admits)
    (hf : f.Tidy admits) : (place name n f).Tidy admits := by
  induction f using entryInduction with
  | empty => exact tidy_add.mpr ⟨hname, rfl, hn, trivial⟩
  | add m o rest ih =>
      rw [place_add]
      split
      · exact tidy_add.mpr ⟨hname, hfree, hn, hf⟩
      · obtain ⟨hm, hfree', ho, hrest⟩ := tidy_add.mp hf
        rw [child?_add] at hfree
        have hne : m ≠ name := fun h => by simp [h] at hfree
        rw [if_neg hne] at hfree
        refine tidy_add.mpr ⟨hm, ?_, ho, ih hfree hrest⟩
        rw [child?_place hfree, if_neg hne.symm, hfree']

theorem ordered_place (hfree : f.child? name = none) (hn : n.Ordered) (hf : f.Ordered) :
    (place name n f).Ordered := by
  induction f using entryInduction with
  | empty => exact ordered_add.mpr ⟨by simp, hn, trivial⟩
  | add m o rest ih =>
      obtain ⟨hfirst, ho, hrest⟩ := ordered_add.mp hf
      rw [place_add]
      -- The new entry goes in front, or behind the first one, which stays there.
      split
      · rename_i hbefore
        refine ordered_add.mpr ⟨fun m' o' h => ?_, hn, hf⟩
        rw [child?_add] at h
        split at h
        · rename_i hm
          obtain rfl := Option.some.inj h
          exact hm ▸ hbefore
        · exact hbefore.trans (hfirst m' o' h)
      · rename_i hafter
        rw [child?_add] at hfree
        have hne : m ≠ name := fun h => by simp [h] at hfree
        rw [if_neg hne] at hfree
        refine ordered_add.mpr ⟨fun m' o' h => ?_, ho, ih hfree hrest⟩
        rw [child?_place hfree] at h
        split at h
        · rename_i hm
          obtain rfl := Option.some.inj h
          exact hm ▸ ListedBefore.of_not hne.symm hafter
        · exact hfirst m' o' h

theorem arrange_add (name : Text) (n : Node α) (rest : Folder α) :
    (add name n rest).arrange = place name n.arrange rest.arrange := by
  cases n <;> rfl

theorem child?_arrange (hf : f.Tidy admits) (m : Text) :
    f.arrange.child? m = (f.child? m).map Node.arrange := by
  induction f using entryInduction generalizing m with
  | empty => rfl
  | add name n rest ih =>
      obtain ⟨-, hfree, -, hrest⟩ := tidy_add.mp hf
      have hfree' : rest.arrange.child? name = none := by rw [ih hrest, hfree]; rfl
      rw [arrange_add, child?_place hfree', child?_add, ih hrest]
      split <;> rfl

theorem child?_arrange_of_free (hf : f.Tidy admits) (h : f.child? name = none) :
    f.arrange.child? name = none := by
  rw [child?_arrange hf, h]
  rfl

theorem tidy_arrange (hf : f.Tidy admits) : f.arrange.Tidy admits := by
  induction f with
  | empty => trivial
  | file name content rest ih =>
      obtain ⟨hname, hfree, hrest⟩ := hf
      exact tidy_place hname (child?_arrange_of_free hrest hfree) trivial (ih hrest)
  | folder name inside rest ihi ih =>
      obtain ⟨hname, hfree, hinside, hrest⟩ := hf
      exact tidy_place hname (child?_arrange_of_free hrest hfree) (ihi hinside) (ih hrest)

theorem ordered_arrange (hf : f.Tidy admits) : f.arrange.Ordered := by
  induction f with
  | empty => trivial
  | file name content rest ih =>
      obtain ⟨-, hfree, hrest⟩ := hf
      exact ordered_place (child?_arrange_of_free hrest hfree) trivial (ih hrest)
  | folder name inside rest ihi ih =>
      obtain ⟨-, hfree, hinside, hrest⟩ := hf
      exact ordered_place (child?_arrange_of_free hrest hfree) (ihi hinside) (ih hrest)

theorem node?_arrange (hf : f.Tidy admits) (path : List Text) :
    f.arrange.node? path = (f.node? path).map Node.arrange := by
  induction path generalizing f with
  | nil => rfl
  | cons name path ih =>
      rw [node?_cons, node?_cons, child?_arrange hf]
      cases hc : f.child? name with
      | none => rfl
      | some n =>
          cases n with
          | file content => by_cases hp : path = [] <;> simp [Node.arrange, Node.at?, hp]
          | folder inside => exact ih (hf.child hc)

theorem exists_folder_of_arrange (hf : f.Tidy admits) {path : List Text} {g : Folder α}
    (h : f.arrange.node? path = some (.folder g)) :
    ∃ inside, f.node? path = some (.folder inside) ∧ g = inside.arrange := by
  rw [node?_arrange hf] at h
  obtain ⟨n, hn, harrange⟩ := Option.map_eq_some_iff.mp h
  cases n with
  | file content => cases harrange
  | folder inside => exact ⟨inside, hn, (Node.folder.inj harrange).symm⟩

theorem binding?_arrange (hf : f.Tidy admits) (path : List Text) :
    f.arrange.binding? path = f.binding? path := by
  rw [binding?, node?_arrange hf, Option.map_map, binding?]
  congr 1
  funext n
  cases n <;> rfl

theorem Ordered.child (ho : f.Ordered) (h : f.child? name = some n) : n.Ordered := by
  induction f using entryInduction with
  | empty => simp at h
  | add m o rest ih =>
      obtain ⟨-, hordered, hrest⟩ := ordered_add.mp ho
      rw [child?_add] at h
      split at h
      · exact Option.some.inj h ▸ hordered
      · exact ih hrest h

theorem Ordered.node (ho : f.Ordered) {path : List Text} (h : f.node? path = some n) :
    n.Ordered := by
  induction path generalizing f with
  | nil => exact Option.some.inj h ▸ ho
  | cons name path ih =>
      rw [node?_cons] at h
      obtain ⟨o, hc, hat⟩ := Option.bind_eq_some_iff.mp h
      have hchild := ho.child hc
      cases o with
      | file content =>
          by_cases hp : path = []
          · obtain rfl : Node.file content = n := by simpa [Node.at?, hp] using hat
            trivial
          · simp [Node.at?, hp] at hat
      | folder inside => exact ih hchild hat

theorem kinds_arrange_perm (hf : f.Tidy admits) : f.arrange.kinds.Perm f.kinds :=
  kinds_perm (tidy_arrange hf) hf fun path => by rw [binding?_arrange hf]

/-! ## One level -/

/-- The names of the entries with their kinds, without what they hold. -/
def children : Folder α → List (Text × Bool)
  | empty => []
  | file name _ rest => (name, false) :: rest.children
  | folder name _ rest => (name, true) :: rest.children

theorem children_add (name : Text) (n : Node α) (rest : Folder α) :
    (add name n rest).children = (name, n.isFolder) :: rest.children := by
  cases n <;> rfl

theorem exists_child?_of_mem (hf : f.Tidy admits) {c : Text × Bool} (h : c ∈ f.children) :
    ∃ n, f.child? c.1 = some n ∧ n.isFolder = c.2 := by
  induction f using entryInduction with
  | empty => cases h
  | add name n rest ih =>
      obtain ⟨-, hfree, -, hrest⟩ := tidy_add.mp hf
      rw [children_add] at h
      rcases List.mem_cons.mp h with rfl | h
      · exact ⟨n, by rw [child?_add, if_pos rfl], rfl⟩
      · obtain ⟨o, ho, hkind⟩ := ih hrest h
        exact ⟨o, child?_add_of_free n hfree ho, hkind⟩

theorem admits_of_mem_children (hf : f.Tidy admits) {c : Text × Bool} (h : c ∈ f.children) :
    admits c.1 := by
  induction f using entryInduction with
  | empty => cases h
  | add name n rest ih =>
      obtain ⟨hname, -, -, hrest⟩ := tidy_add.mp hf
      rw [children_add] at h
      rcases List.mem_cons.mp h with rfl | h
      · exact hname
      · exact ih hrest h

theorem pairwise_children (hf : f.Tidy admits) (ho : f.Ordered) :
    f.children.Pairwise ListedBefore := by
  induction f using entryInduction with
  | empty => exact .nil
  | add name n rest ih =>
      obtain ⟨-, -, -, hrest⟩ := tidy_add.mp hf
      obtain ⟨hfirst, -, ho⟩ := ordered_add.mp ho
      rw [children_add]
      refine List.pairwise_cons.mpr ⟨fun ⟨m, kind⟩ hc => ?_, ih hrest ho⟩
      obtain ⟨o, hchild, rfl⟩ := exists_child?_of_mem hrest hc
      exact hfirst m o hchild

/-- The entries of a folder itself are the ones with one name in their paths. -/
theorem filter_entries_children (hf : f.Tidy admits) :
    (f.entries.filter fun e => e.1.dropLast = []).map (fun e => (e.1, e.2.isNone))
      = f.children.map fun c => ([c.1], c.2) := by
  induction f with
  | empty => rfl
  | file name content rest ih =>
      obtain ⟨-, -, hrest⟩ := hf
      rw [entries_file, List.filter_cons_of_pos (by simp), List.map_cons, ih hrest]
      rfl
  | folder name inside rest _ ih =>
      obtain ⟨-, -, hinside, hrest⟩ := hf
      have hdeep : (inside.entries.map fun e => (name :: e.1, e.2)).filter
          (fun e => e.1.dropLast = []) = [] := by
        refine List.filter_eq_nil_iff.mpr fun e he => ?_
        obtain ⟨below, hbelow, rfl⟩ := List.mem_map.mp he
        have hne := ((mem_entries hinside).mp hbelow).1
        simp [List.dropLast_cons_of_ne_nil hne]
      rw [entries_folder, List.filter_cons_of_pos (by simp), List.filter_append, hdeep,
        List.nil_append, List.map_cons, ih hrest]
      rfl

/-- The entries whose paths lead one step on from a directory are the children of that directory. -/
theorem filter_kinds_children (hf : f.Tidy admits) {path : List Text} {inside : Folder α}
    (h : f.node? path = some (.folder inside)) :
    f.kinds.filter (fun e => e.1.dropLast = path)
      = inside.children.map fun c => (path ++ [c.1], c.2) := by
  have hinside : inside.Tidy admits := hf.node h
  -- What is one step below a path is below it, and the entries below it are those of the directory.
  have hstep : f.entries.filter (fun e => e.1.dropLast = path)
      = (inside.entries.map fun e => (path ++ e.1, e.2)).filter fun e => e.1.dropLast = path := by
    rw [← filter_entries hf h, List.filter_filter]
    refine List.filter_congr fun e he => ?_
    have hne := ((mem_entries hf).mp he).1
    have habove (hlast : e.1.dropLast = path) : Path.IsAbove path e.1 := by
      refine Path.isAbove_iff_append.mpr ⟨[e.1.getLast hne], by simp, ?_⟩
      rw [← hlast, List.dropLast_concat_getLast hne]
    by_cases hlast : e.1.dropLast = path <;> simp [hlast, habove]
  have hdeep : (fun e : List Text × Option α => decide (e.1.dropLast = path))
        ∘ (fun e : List Text × Option α => (path ++ e.1, e.2))
      = fun e => decide ((path ++ e.1).dropLast = path) := rfl
  have hchildren : (inside.entries.filter fun e => decide ((path ++ e.1).dropLast = path))
      = inside.entries.filter fun e => e.1.dropLast = [] := by
    refine List.filter_congr fun e he => ?_
    have hne := ((mem_entries hinside).mp he).1
    rw [List.dropLast_append_of_ne_nil hne, decide_eq_decide, List.append_right_eq_self]
  calc f.kinds.filter (fun e => e.1.dropLast = path)
      = (f.entries.filter fun e => e.1.dropLast = path).map fun e => (e.1, e.2.isNone) := by
        rw [kinds, List.filter_map]
        rfl
    _ = ((inside.entries.filter fun e => e.1.dropLast = []).map fun e => (e.1, e.2.isNone)).map
          fun c => (path ++ c.1, c.2) := by
        rw [hstep, List.filter_map, hdeep, hchildren, List.map_map, List.map_map]
        rfl
    _ = inside.children.map fun c => (path ++ [c.1], c.2) := by
        rw [filter_entries_children hinside, List.map_map]
        rfl

end Folder

end PipeShell
