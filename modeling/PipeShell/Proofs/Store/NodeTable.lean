import Mathlib.Data.List.Nodup
import Mathlib.Data.List.Perm.Subperm
import PipeShell.Proofs.Store.Memory
import PipeShell.Store.NodeTable

/-!
# Tables of nodes as folders

In a table every node knows the directory that it was put into, and a directory knows its children by
their labels. A folder has neither links nor labels, and stands for the same tree: putting a node into
a directory and taking a child out of it change one entry, at any depth. Walking through a directory
gives the entries in their order, and the path of a node is the path of its entry. So what a store in
memory does to its tree can be done to a table.
-/

namespace PipeShell.NodeTable

open PipeShell.Action

/-- As children of the directory `dir` these nodes hold what the folder holds; `ls` are the labels of
all nodes below, each before what is below it. -/
inductive Holds (t : NodeTable) : Text → List (Text × Text) → Folder Text → List Text → Prop
  | empty {dir} : Holds t dir [] .empty []
  | file {dir name label content cs f ls} :
      t.node label = { name, parent := some dir, content := some content } →
      Holds t dir cs f ls →
      Holds t dir ((name, label) :: cs) (.file name content f) (label :: ls)
  | folder {dir name label children inside below cs f ls} :
      t.node label = { name, parent := some dir, children } →
      Holds t label children inside below →
      Holds t dir cs f ls →
      Holds t dir ((name, label) :: cs) (.folder name inside f) (label :: (below ++ ls))

/-- The node of a label, in whatever directory, is this file or holds what this folder holds. -/
inductive Stands (t : NodeTable) (label : Text) : Node Text → List Text → Prop
  | file {content} : (t.node label).content = some content → (t.node label).children = [] →
      Stands t label (.file content) []
  | folder {inside below} : (t.node label).content = none →
      Holds t label (t.node label).children inside below → Stands t label (.folder inside) below

/-! ## Nodes of a table -/

variable {t t' : NodeTable} {dir child label name : Text} {cs : List (Text × Text)}
  {f : Folder Text} {n : Node Text} {ls below : List Text}

theorem lookup_filter_ne {other : Text} (h : other ≠ label) (t : NodeTable) :
    (t.filter (·.1 ≠ label)).lookup other = t.lookup other := by
  induction t with
  | nil => rfl
  | cons entry t ih =>
      obtain ⟨l, n⟩ := entry
      by_cases hl : l = label
      · have hne : (other == l) = false := by simpa [hl] using h
        rw [List.filter_cons_of_neg (by simpa using hl), ih, List.lookup_cons, hne]
      · rw [List.filter_cons_of_pos (by simpa using hl), List.lookup_cons, List.lookup_cons, ih]

theorem node_put (t : NodeTable) (label : Text) (n : TableNode) (other : Text) :
    (t.put label n).node other = if other = label then n else t.node other := by
  by_cases h : other = label
  · simp [node, put, h]
  · have hne : (other == label) = false := by simpa using h
    rw [node, put, List.lookup_cons, hne, lookup_filter_ne h, if_neg h, node]

theorem mem_labels_of_parent (h : (t.node label).parent ≠ none) : label ∈ t.map Prod.fst := by
  by_contra hmem
  have hlookup : t.lookup label = none := List.lookup_eq_none_iff.mpr fun entry hentry => by
    rw [bne_iff_ne]
    rintro rfl
    exact hmem (List.mem_map_of_mem hentry)
  exact h (by simp [node, hlookup])

namespace Holds

/-- What a directory holds depends on the nodes below it only. -/
theorem congr (h : Holds t dir cs f ls) (hsame : ∀ l ∈ ls, t'.node l = t.node l) :
    Holds t' dir cs f ls := by
  induction h with
  | empty => exact .empty
  | file hnode _ ih =>
      obtain ⟨hl, hls⟩ := List.forall_mem_cons.mp hsame
      exact .file (hl.trans hnode) (ih hls)
  | folder hnode _ _ ihinside ih =>
      obtain ⟨hl, hls⟩ := List.forall_mem_cons.mp hsame
      exact .folder (hl.trans hnode) (ihinside fun l hm => hls l (List.mem_append_left _ hm))
        (ih fun l hm => hls l (List.mem_append_right _ hm))

end Holds

theorem Stands.congr (h : Stands t label n below)
    (hcontent : (t'.node label).content = (t.node label).content)
    (hchildren : (t'.node label).children = (t.node label).children)
    (hsame : ∀ l ∈ below, t'.node l = t.node l) : Stands t' label n below := by
  cases h with
  | file hfile hnone => exact .file (hcontent.trans hfile) (hchildren.trans hnone)
  | folder hfolder hinside =>
      exact .folder (hcontent.trans hfolder) (hchildren ▸ hinside.congr hsame)

namespace Holds

theorem parent_ne_none (h : Holds t dir cs f ls) (hl : label ∈ ls) :
    (t.node label).parent ≠ none := by
  induction h with
  | empty => cases hl
  | file hnode _ ih =>
      rcases List.mem_cons.mp hl with rfl | hl
      · simp [hnode]
      · exact ih hl
  | folder hnode _ _ ihinside ih =>
      rcases List.mem_cons.mp hl with rfl | hl
      · simp [hnode]
      · rcases List.mem_append.mp hl with hl | hl
        · exact ihinside hl
        · exact ih hl

/-- No more nodes are below a directory than the table has. -/
theorem length_le (h : Holds t dir cs f ls) (hnodup : ls.Nodup) : ls.length ≤ t.length := by
  have hsub : ls ⊆ t.map Prod.fst := fun _ hl => mem_labels_of_parent (h.parent_ne_none hl)
  simpa using (List.subperm_of_subset hnodup hsub).length_le

/-! ## One entry -/

/-- A node that stands for an entry, has its name and links to the directory is one more child. -/
theorem add (hname : (t.node label).name = name) (hparent : (t.node label).parent = some dir)
    (hn : Stands t label n below) (h : Holds t dir cs f ls) :
    Holds t dir ((name, label) :: cs) (Folder.add name n f) (label :: (below ++ ls)) := by
  cases hn with
  | file hcontent hchildren =>
      refine .file ?_ h
      rw [← hname, ← hparent, ← hcontent, ← hchildren]
  | folder hcontent hinside =>
      refine .folder ?_ hinside h
      rw [← hname, ← hparent, ← hcontent]

@[elab_as_elim] theorem entryInduction
    {motive : ∀ cs f ls, Holds t dir cs f ls → Prop} (empty : motive [] .empty [] .empty)
    (add : ∀ name label n cs f below ls (hname : (t.node label).name = name)
      (hparent : (t.node label).parent = some dir) (hn : Stands t label n below)
      (h : Holds t dir cs f ls), motive cs f ls h → motive _ _ _ (.add hname hparent hn h))
    {cs : List (Text × Text)} {f : Folder Text} {ls : List Text} (h : Holds t dir cs f ls) :
    motive cs f ls h := by
  induction h with
  | empty => exact empty
  | file hnode hrest ih =>
      exact add _ _ (.file _) _ _ [] _ (by rw [hnode]) (by rw [hnode])
        (.file (by rw [hnode]) (by rw [hnode])) hrest (ih empty add)
  | folder hnode hinside hrest _ ih =>
      exact add _ _ (.folder _) _ _ _ _ (by rw [hnode]) (by rw [hnode])
        (.folder (by rw [hnode]) (by rwa [hnode])) hrest (ih empty add)

/-- A child of a name is there when the folder has an entry of the name, and stands for it. -/
theorem lookup (h : Holds t dir cs f ls) (name : Text) :
    match cs.lookup name, f.child? name with
    | some label, some n => ∃ below, Stands t label n below
    | none, none => True
    | _, _ => False := by
  induction h using entryInduction with
  | empty => trivial
  | add m label n cs f below ls _ _ hn _ ih =>
      rw [Folder.child?_add]
      by_cases hm : m = name
      · subst hm
        rw [List.lookup_cons_self, if_pos rfl]
        exact ⟨below, hn⟩
      · have hne : (name == m) = false := by simpa using Ne.symm hm
        rw [List.lookup_cons, hne, if_neg hm]
        exact ih

theorem isSome_lookup (h : Holds t dir cs f ls) (name : Text) :
    (cs.lookup name).isSome = (f.child? name).isSome := by
  have hlookup := h.lookup name
  cases hcs : cs.lookup name <;> cases hf : f.child? name <;> simp_all

/-! ## Changes of one entry -/

/-- A node behind the others is a new entry at the end. -/
theorem concat (h : Holds t dir cs f ls) (hfree : f.child? name = none)
    (hlast : Holds t dir [(name, label)] (Folder.add name n .empty) below) :
    Holds t dir (cs ++ [(name, label)]) (f.alterChild name fun _ => some n) (ls ++ below) := by
  induction h using entryInduction with
  | empty => exact hlast
  | add m _ _ _ _ _ _ hname hparent hn _ ih =>
      rw [Folder.child?_add] at hfree
      by_cases hm : m = name
      · rw [if_pos hm] at hfree
        cases hfree
      · rw [if_neg hm] at hfree
        rw [Folder.alterChild_add, if_neg hm, List.cons_append, List.cons_append, List.append_assoc]
        exact .add hname hparent hn (ih hfree)

theorem filter_of_free (h : Holds t dir cs f ls) (hfree : f.child? name = none) :
    cs.filter (·.1 ≠ name) = cs := by
  have hnone : cs.lookup name = none := by
    have hsome := h.isSome_lookup name
    rw [hfree] at hsome
    simpa using hsome
  refine List.filter_eq_self.mpr fun entry hentry => ?_
  have hne : name ≠ entry.1 := bne_iff_ne.mp (List.lookup_eq_none_iff.mp hnone entry hentry)
  exact decide_eq_true hne.symm

/-- Without the child of a name, the folder is without its entry. -/
theorem without {admits : Text → Prop} (h : Holds t dir cs f ls) (hf : f.Tidy admits)
    (name : Text) :
    ∃ kept, Holds t dir (cs.filter (·.1 ≠ name)) (f.alterChild name fun _ => none) kept
      ∧ kept.Sublist ls := by
  induction h using entryInduction with
  | empty => exact ⟨[], .empty, .refl _⟩
  | add m label n cs f below ls hname hparent hn hrest ih =>
      obtain ⟨-, hfree, -, hf⟩ := Folder.tidy_add.mp hf
      rw [Folder.alterChild_add]
      by_cases hm : m = name
      · subst hm
        rw [List.filter_cons_of_neg (by simp), hrest.filter_of_free hfree, if_pos rfl]
        exact ⟨ls, hrest, (List.sublist_append_right _ _).cons _⟩
      · obtain ⟨kept, hkept, hsub⟩ := ih hf
        rw [List.filter_cons_of_pos (by simpa using hm), if_neg hm]
        exact ⟨_, .add hname hparent hn hkept, (hsub.append_left _).cons_cons _⟩

/-! ## Walks and paths -/

theorem flatMap_below (h : Holds t dir cs f ls) {fuel : Nat} (hfuel : ls.length ≤ fuel) :
    (cs.flatMap fun (_, child) => child :: t.below fuel child) = ls := by
  induction h generalizing fuel with
  | empty => rfl
  | @file _ _ label _ _ _ _ hnode _ ih =>
      have hnone : t.below fuel label = [] := by
        cases fuel with
        | zero => rfl
        | succ fuel => simp [NodeTable.below, hnode]
      rw [List.length_cons] at hfuel
      simp [hnone, ih (Nat.le_of_succ_le hfuel)]
  | @folder _ _ label _ _ below _ _ ls hnode _ _ ihinside ih =>
      rw [List.length_cons, List.length_append] at hfuel
      obtain ⟨fuel, rfl⟩ : ∃ k, fuel = k + 1 := ⟨fuel - 1, by omega⟩
      have hbelow : t.below (fuel + 1) label = below := by
        rw [NodeTable.below, hnode]
        exact ihinside (by omega)
      simp [hbelow, ih (show ls.length ≤ fuel + 1 by omega)]

/-- The names above the nodes of a directory are the paths of the entries, below its own names. -/
theorem map_namesUp {up : List Text} {depth : Nat} (h : Holds t dir cs f ls)
    (hup : ∀ fuel, depth ≤ fuel → t.namesUp fuel dir = up) {fuel : Nat}
    (hfuel : depth + ls.length ≤ fuel) :
    (ls.map fun l => (t.namesUp fuel l).reverse) = (f.entriesUnder up.reverse).map Prod.fst := by
  induction h generalizing up depth with
  | empty => rfl
  | @file dir name label _ _ _ _ hnode _ ih =>
      rw [List.length_cons] at hfuel
      have hname : t.namesUp fuel label = name :: up := by
        obtain ⟨fuel, rfl⟩ : ∃ k, fuel = k + 1 := ⟨fuel - 1, by omega⟩
        simp [namesUp, hnode, hup fuel (by omega)]
      simp [Folder.entriesUnder, hname, ih hup (by omega)]
  | @folder dir name label _ _ _ _ _ _ hnode _ _ ihinside ih =>
      rw [List.length_cons, List.length_append] at hfuel
      -- Below the folder there is one name more above.
      have hname : ∀ fuel, depth + 1 ≤ fuel → t.namesUp fuel label = name :: up := by
        intro fuel hle
        obtain ⟨fuel, rfl⟩ : ∃ k, fuel = k + 1 := ⟨fuel - 1, by omega⟩
        simp [namesUp, hnode, hup fuel (by omega)]
      have hinside := ihinside hname (by omega)
      rw [List.reverse_cons] at hinside
      simp [Folder.entriesUnder, hname fuel (by omega), hinside, ih hup (by omega)]

end Holds

/-! ## The operations -/

/-- The child of a name stands for the entry of the name; without an entry there is none. -/
theorem child_eq (h : Holds t dir (t.node dir).children f ls) (name : Text) :
    match f.child? name with
    | some n => ∃ label below, t.child dir name = .ok label ∧ Stands t label n below
    | none => t.child dir name = .error (.noSuchEntry (Path.join [t.path dir, name])) := by
  have hlookup := h.lookup name
  rw [child]
  cases hcs : (t.node dir).children.lookup name <;> cases hf : f.child? name <;> simp_all

/-- Walking through a directory finds each node below it once, in the order of the entries. -/
theorem descendants_eq (h : Holds t dir (t.node dir).children f ls) (hnodup : ls.Nodup) :
    t.descendants dir = ls := by
  rw [descendants, below]
  exact h.flatMap_below (h.length_le hnodup)

/-- The paths of the nodes that a walk from the top finds are the paths of the entries. -/
theorem map_path_descendants (h : Holds t dir (t.node dir).children f ls) (hnodup : ls.Nodup)
    (htop : (t.node dir).parent = none) :
    (t.descendants dir).map t.path = f.entries.map fun e => Path.ofSegments e.1 := by
  have hup : ∀ fuel, 0 ≤ fuel → t.namesUp fuel dir = [] := by
    intro fuel _
    cases fuel with
    | zero => rfl
    | succ fuel => simp [namesUp, htop]
  have hlength := h.length_le hnodup
  have hnames := h.map_namesUp hup (show 0 + ls.length ≤ t.length + 1 by omega)
  calc (t.descendants dir).map t.path
      = (ls.map fun l => (t.namesUp (t.length + 1) l).reverse).map Path.ofSegments := by
        rw [descendants_eq h hnodup, List.map_map]
        rfl
    _ = f.entries.map fun e => Path.ofSegments e.1 := by
        rw [hnames, List.map_map]
        rfl

theorem outcome_addChild_taken (h : Holds t dir (t.node dir).children f ls)
    (htaken : f.child? (t.node child).name ≠ none) :
    (addChild dir child).outcome t
      = (.error (.childExists (t.node child).name (t.path dir)), t) := by
  have hsome : ((t.node dir).children.lookup (t.node child).name).isSome = true := by
    rw [h.isSome_lookup]
    exact Option.isSome_iff_ne_none.mpr htaken
  simp [addChild, outcome_bind, hsome]

/-- A node that is put into a directory is a new entry at the end of the folder. All other nodes stay
as they are. -/
theorem outcome_addChild (h : Holds t dir (t.node dir).children f ls)
    (hchild : Stands t child n below) (hapart : (dir :: ls ++ child :: below).Nodup)
    (hfree : f.child? (t.node child).name = none) :
    ∃ t', (addChild dir child).outcome t = (.ok (), t')
      ∧ Holds t' dir (t'.node dir).children (f.alterChild (t.node child).name fun _ => some n)
        (ls ++ child :: below)
      ∧ (∃ children, t'.node dir = { t.node dir with children })
      ∧ ∀ l, l ≠ dir → l ≠ child → t'.node l = t.node l := by
  obtain ⟨hdir, hbelow, hdisjoint⟩ := List.nodup_append'.mp hapart
  obtain ⟨hdirls, -⟩ := List.nodup_cons.mp hdir
  obtain ⟨hchildbelow, -⟩ := List.nodup_cons.mp hbelow
  have hne : dir ≠ child := by
    rintro rfl
    exact hdisjoint List.mem_cons_self List.mem_cons_self
  have hnone : ((t.node dir).children.lookup (t.node child).name).isSome = false := by
    rw [h.isSome_lookup, hfree]
    rfl
  let adopted := t.put child { t.node child with parent := some dir }
  let t' := adopted.put dir
    { t.node dir with children := (t.node dir).children ++ [((t.node child).name, child)] }
  have hnode (l : Text) (hl : l ≠ dir) : t'.node l = adopted.node l := by
    rw [node_put, if_neg hl]
  have hother (l : Text) (hl : l ≠ dir) (hl' : l ≠ child) : t'.node l = t.node l := by
    rw [hnode l hl, node_put, if_neg hl']
  have hadopted : t'.node child
      = ⟨(t.node child).name, some dir, (t.node child).content, (t.node child).children⟩ := by
    rw [hnode child hne.symm, node_put, if_pos rfl]
  have hkept : Holds t' dir (t.node dir).children f ls := h.congr fun l hl =>
    hother l (fun he => hdirls (he ▸ hl)) fun he =>
      hdisjoint (List.mem_cons_of_mem _ hl) (he ▸ List.mem_cons_self)
  have hstands : Stands t' child n below := hchild.congr (by rw [hadopted]) (by rw [hadopted])
    fun l hl => hother l (fun he => hdisjoint List.mem_cons_self (he ▸ List.mem_cons_of_mem _ hl))
      fun he => hchildbelow (he ▸ hl)
  have hlast : Holds t' dir [((t.node child).name, child)] (Folder.add (t.node child).name n .empty)
      (child :: (below ++ [])) :=
    .add (by rw [hadopted]) (by rw [hadopted]) hstands .empty
  rw [List.append_nil] at hlast
  have hnodedir : t'.node dir = { t.node dir with
      children := (t.node dir).children ++ [((t.node child).name, child)] } := by
    rw [node_put, if_pos rfl]
  refine ⟨t', ?_, ?_, ⟨_, hnodedir⟩, hother⟩
  · simp [addChild, outcome_bind, hnone, node_put, hne, t', adopted]
  · rw [hnodedir]
    exact hkept.concat hfree hlast

theorem outcome_removeChild_missing (h : Holds t dir (t.node dir).children f ls)
    (hfree : f.child? name = none) :
    (removeChild dir name).outcome t = (.error (.noSuchChild name (t.path dir)), t) := by
  have hnone : ((t.node dir).children.lookup name).isNone = true := by
    rw [← Option.not_isSome, h.isSome_lookup, hfree]
    rfl
  simp only [removeChild, outcome_bind, outcome_get, hnone]
  rfl

/-- Taking a child out of a directory removes the entry of its name. All other nodes stay as they are,
also the one that is taken out. -/
theorem outcome_removeChild {admits : Text → Prop} (h : Holds t dir (t.node dir).children f ls)
    (hf : f.Tidy admits) (hdir : dir ∉ ls) (hheld : f.child? name ≠ none) :
    ∃ t' kept, (removeChild dir name).outcome t = (.ok (), t')
      ∧ Holds t' dir (t'.node dir).children (f.alterChild name fun _ => none) kept
      ∧ kept.Sublist ls ∧ (∃ children, t'.node dir = { t.node dir with children })
      ∧ ∀ l, l ≠ dir → t'.node l = t.node l := by
  have hsome : ((t.node dir).children.lookup name).isNone = false := by
    rw [Option.isNone_eq_false_iff, h.isSome_lookup]
    exact Option.isSome_iff_ne_none.mpr hheld
  obtain ⟨kept, hkept, hsub⟩ := h.without hf name
  let t' := t.put dir
    { t.node dir with children := (t.node dir).children.filter (·.1 ≠ name) }
  have hother (l : Text) (hl : l ≠ dir) : t'.node l = t.node l := by
    rw [node_put, if_neg hl]
  have hnodedir : t'.node dir = { t.node dir with
      children := (t.node dir).children.filter (·.1 ≠ name) } := by
    rw [node_put, if_pos rfl]
  refine ⟨t', kept, ?_, ?_, hsub, ⟨_, hnodedir⟩, hother⟩
  · simp [removeChild, outcome_bind, hsome, t']
  · rw [hnodedir]
    exact hkept.congr fun l hl => hother l fun he => hdir (he ▸ hsub.subset hl)

/-! ## Below the top -/

/-- A child that is a directory can get other children: what its directory holds is then another one
in the entry of its name only. -/
theorem Holds.child_folder {inside : Folder Text} (h : Holds t dir cs f ls)
    (hinside : f.child? name = some (.folder inside)) :
    ∃ label before below after, cs.lookup name = some label
      ∧ ls = before ++ (label :: below ++ after)
      ∧ Holds t label (t.node label).children inside below
      ∧ ∀ t' inside' below', (∀ l ∈ before ++ after, t'.node l = t.node l) →
        (∃ children, t'.node label = { t.node label with children }) →
        Holds t' label (t'.node label).children inside' below' →
        Holds t' dir cs (f.alterChild name fun _ => some (.folder inside'))
          (before ++ (label :: below' ++ after)) := by
  induction h using entryInduction with
  | empty => cases hinside
  | add m first n _ _ below₀ ls hname hparent hn hrest ih =>
      rw [Folder.child?_add] at hinside
      by_cases hm : m = name
      · subst hm
        rw [if_pos rfl] at hinside
        cases hinside
        cases hn with
        | folder hcontent hbelow =>
            refine ⟨first, [], below₀, ls, List.lookup_cons_self, rfl, hbelow,
              fun t' _ _ hsame hl h' => ?_⟩
            obtain ⟨children, hl⟩ := hl
            rw [Folder.alterChild_add, if_pos rfl]
            exact .add (by rw [hl, hname]) (by rw [hl, hparent]) (.folder (by rw [hl, hcontent]) h')
              (hrest.congr hsame)
      · rw [if_neg hm] at hinside
        obtain ⟨label, before, below, after, hlookup, rfl, hbelow, hchange⟩ := ih hinside
        have hne : (name == m) = false := by simpa using Ne.symm hm
        refine ⟨label, first :: (below₀ ++ before), below, after, ?_, by simp, hbelow,
          fun t' _ _ hsame hl h' => ?_⟩
        · rw [List.lookup_cons, hne]
          exact hlookup
        · rw [List.cons_append, List.append_assoc, List.forall_mem_cons, List.forall_mem_append]
            at hsame
          obtain ⟨hsamefirst, hsamebelow, hsame⟩ := hsame
          rw [Folder.alterChild_add, if_neg hm, List.cons_append, List.append_assoc]
          exact .add (by rw [hsamefirst, hname]) (by rw [hsamefirst, hparent])
            (hn.congr (by rw [hsamefirst]) (by rw [hsamefirst]) hsamebelow)
            (hchange t' _ _ hsame hl h')

/-- The names of a path lead from the top to the directory that holds the folder at the path. What
changes there is, seen from the top, a change at the path. -/
theorem Holds.at_path {top : Text} {path : List Text} {g : Folder Text}
    (h : Holds t top (t.node top).children f ls) (hfound : f.node? path = some (.folder g)) :
    ∃ dir before inner after, (path.foldlM t.child top : Except Failure Text) = .ok dir
      ∧ top :: ls = before ++ (dir :: inner ++ after)
      ∧ Holds t dir (t.node dir).children g inner
      ∧ ∀ t' change name inner', (∀ l ∈ before ++ after, t'.node l = t.node l) →
        (∃ children, t'.node dir = { t.node dir with children }) →
        Holds t' dir (t'.node dir).children (g.alterChild name change) inner' →
        ∃ ls', top :: ls' = before ++ (dir :: inner' ++ after)
          ∧ Holds t' top (t'.node top).children (f.alter (path ++ [name]) change) ls'
          ∧ ∃ children, t'.node top = { t.node top with children } := by
  induction path generalizing top f ls with
  | nil =>
      obtain rfl : f = g := by simpa using hfound
      exact ⟨top, [], ls, [], rfl, by simp, h, fun t' change name inner' _ hdir h' =>
        ⟨inner', by simp, h', hdir⟩⟩
  | cons m path ih =>
      obtain ⟨inside, hchild, hfound⟩ := Folder.exists_folder_of_node?_cons hfound
      obtain ⟨label, before, below, after, hlookup, rfl, hbelow, hchange⟩ := h.child_folder hchild
      obtain ⟨dir, before', inner, after', hwalk, hlist, hinner, hinside⟩ := ih hbelow hfound
      refine ⟨dir, top :: (before ++ before'), inner, after' ++ after, ?_, ?_, hinner,
        fun t' change name inner' hsame hdir h' => ?_⟩
      · rw [List.foldlM_cons, child, hlookup]
        exact hwalk
      · rw [hlist]
        simp
      · simp only [List.cons_append, List.append_assoc, List.forall_mem_cons,
          List.forall_mem_append] at hsame
        obtain ⟨hsametop, hsamebefore, hsamebefore', hsameafter', hsameafter⟩ := hsame
        obtain ⟨below', hlist', hbelow', hlabel⟩ := hinside t' change name inner'
          (List.forall_mem_append.mpr ⟨hsamebefore', hsameafter'⟩) hdir h'
        have htop := hchange t' _ below'
          (List.forall_mem_append.mpr ⟨hsamebefore, hsameafter⟩) hlabel hbelow'
        refine ⟨_, ?_, by rwa [hsametop, Folder.alter_cons_concat hchild], _, hsametop⟩
        rw [hlist']
        simp

/-- Putting a node into the directory that a path leads to is a new entry at the path. -/
theorem outcome_addChild_at {top : Text} {path : List Text} {g : Folder Text}
    (h : Holds t top (t.node top).children f ls) (hfound : f.node? path = some (.folder g))
    (hchild : Stands t child n below) (hapart : (top :: ls ++ child :: below).Nodup)
    (hfree : g.child? (t.node child).name = none) :
    ∃ dir t' ls', (path.foldlM t.child top : Except Failure Text) = .ok dir
      ∧ (addChild dir child).outcome t = (.ok (), t')
      ∧ Holds t' top (t'.node top).children
        (f.alter (path ++ [(t.node child).name]) fun _ => some n) ls'
      ∧ (top :: ls').Perm (top :: ls ++ child :: below)
      ∧ ∃ children, t'.node top = { t.node top with children } := by
  obtain ⟨dir, before, inner, after, hwalk, hlist, hinner, hchange⟩ := h.at_path hfound
  have hperm : (top :: ls ++ child :: below).Perm
      ((dir :: inner ++ child :: below) ++ (before ++ after)) := by
    rw [hlist]
    exact List.perm_iff_count.mpr fun l => by simp only [List.count_append]; omega
  obtain ⟨hinnerapart, -, houtside⟩ := List.nodup_append'.mp (hperm.nodup_iff.mp hapart)
  obtain ⟨t', hrun, hadded, hdir, hother⟩ := outcome_addChild hinner hchild hinnerapart hfree
  have hsame : ∀ l ∈ before ++ after, t'.node l = t.node l := fun l hl =>
    hother l (fun he => houtside (by simp [he]) hl) fun he => houtside (by simp [he]) hl
  obtain ⟨ls', hlist', htop, htopnode⟩ := hchange t' _ _ _ hsame hdir hadded
  refine ⟨dir, t', ls', hwalk, hrun, htop, ?_, htopnode⟩
  rw [hlist', hlist]
  exact List.perm_iff_count.mpr fun l => by
    simp only [List.count_append, List.cons_append, List.count_cons]
    omega

/-- Taking a child out of the directory that a path leads to removes the entry at the path. -/
theorem outcome_removeChild_at {top : Text} {path : List Text} {g : Folder Text}
    {admits : Text → Prop} (h : Holds t top (t.node top).children f ls) (hf : f.Tidy admits)
    (hfound : f.node? path = some (.folder g)) (hnodup : (top :: ls).Nodup)
    (hheld : g.child? name ≠ none) :
    ∃ dir t' kept, (path.foldlM t.child top : Except Failure Text) = .ok dir
      ∧ (removeChild dir name).outcome t = (.ok (), t')
      ∧ Holds t' top (t'.node top).children (f.erase (path ++ [name])) kept
      ∧ kept.Sublist ls ∧ ∃ children, t'.node top = { t.node top with children } := by
  obtain ⟨dir, before, inner, after, hwalk, hlist, hinner, hchange⟩ := h.at_path hfound
  have hperm : (top :: ls).Perm (dir :: inner ++ (before ++ after)) := by
    rw [hlist]
    exact List.perm_append_comm_assoc before (dir :: inner) after
  obtain ⟨hdirinner, -, houtside⟩ := List.nodup_append'.mp (hperm.nodup_iff.mp hnodup)
  obtain ⟨t', kept, hrun, hkept, hsub, hdir, hother⟩ :=
    outcome_removeChild hinner (hf.node hfound) (List.nodup_cons.mp hdirinner).1 hheld
  have hsame : ∀ l ∈ before ++ after, t'.node l = t.node l := fun l hl =>
    hother l fun he => houtside (by simp [he]) hl
  obtain ⟨ls', hlist', htop, htopnode⟩ := hchange t' _ _ _ hsame hdir hkept
  have hkeptsub : (top :: ls').Sublist (top :: ls) := by
    rw [hlist', hlist]
    exact ((hsub.cons_cons dir).append_right after).append_left before
  exact ⟨dir, t', ls', hwalk, hrun, htop, List.cons_sublist_cons.mp hkeptsub, htopnode⟩

/-! ## The store in memory -/

/-- Below the label the table holds the tree of the store, every node once. -/
structure Backs (t : NodeTable) (top : Text) (m : Memory) (labels : List Text) : Prop where
  holds : Holds t top (t.node top).children m.tree labels
  nodup : (top :: labels).Nodup
  parentless : (t.node top).parent = none

theorem backs_initial (quota : Int) : Backs initial "root" ⟨.empty, quota⟩ [] where
  holds := .empty
  nodup := List.nodup_singleton _
  parentless := rfl

namespace Backs

variable {top : Text} {labels : List Text} {m m' : Memory} {path content : Text}
  {above : List Text} {admits : Text → Prop}

/-- The listing of the store names the paths of the nodes that a walk finds, in its order. -/
theorem list (h : Backs t top m labels) :
    (m.list []).map (·.map StoreEntry.path) = .ok ((t.descendants top).map t.path) := by
  rw [map_path_descendants h.holds (List.nodup_cons.mp h.nodup).2 h.parentless]
  have hroot : m.directory [] = .ok m.tree := Memory.directory_eq_ok.mpr rfl
  rw [Memory.list, hroot]
  change Except.ok _ = _
  simp [Folder.entries, Memory.entry, Function.comp_def]

/-- The names of a path lead to the node that has the content of the file. -/
theorem read (h : Backs t top m labels) (hread : m.read path = .ok content) :
    ∃ label, ((Path.segments path).foldlM t.child top : Except Failure Text) = .ok label
      ∧ (t.node label).content = some content := by
  have hfile := Memory.read_eq_ok.mp hread
  obtain ⟨above, name, hpath⟩ := (List.eq_nil_or_concat' (Path.segments path)).resolve_left
    (Memory.above_file ⟨content, hfile⟩).1
  have hnode : m.tree.node? (above ++ [name]) = some (.file content) :=
    hpath ▸ Folder.binding?_eq_file.mp hfile
  obtain ⟨g, habove, -⟩ :=
    Folder.exists_folder_of_node?_concat (hnode ▸ Option.some_ne_none (Node.file content))
  obtain ⟨dir, -, inner, -, hwalk, -, hinner, -⟩ := h.holds.at_path habove
  have hentry : g.child? name = some (.file content) := by
    simpa [Folder.node?_append, habove, Node.at?, Folder.node?_singleton] using hnode
  have hchild := child_eq hinner name
  rw [hentry] at hchild
  obtain ⟨label, below, hlabel, hstands⟩ := hchild
  cases hstands with
  | file hcontent =>
      refine ⟨label, ?_, hcontent⟩
      rw [hpath, List.foldlM_append, hwalk]
      change List.foldlM t.child dir [name] = _
      simp [hlabel]

/-- Deleting an entry of the store takes its node out of the directory above it. -/
theorem delete (h : Backs t top m labels) (hm : m.Tidy admits)
    (hdelete : m.deleteFile path = .ok m' ∨ m.deleteDirectory path = .ok m') :
    ∃ above name dir t' kept, Path.segments path = above ++ [name]
      ∧ (above.foldlM t.child top : Except Failure Text) = .ok dir
      ∧ (removeChild dir name).outcome t = (.ok (), t') ∧ Backs t' top m' kept := by
  obtain ⟨above, name, hpath, hheld, rfl⟩ := Memory.erased_of_delete hdelete
  obtain ⟨g, habove, hchild⟩ := Folder.exists_folder_of_node?_concat hheld
  obtain ⟨dir, t', kept, hwalk, hrun, hholds, hsub, children, htop⟩ :=
    outcome_removeChild_at h.holds hm habove h.nodup hchild
  refine ⟨above, name, dir, t', kept, hpath, hwalk, hrun, hholds, ?_, ?_⟩
  · exact h.nodup.sublist (hsub.cons_cons top)
  · rw [htop]
    exact h.parentless

/-- Creating a file in a directory where its name is free puts a new node into the directory. -/
theorem create (h : Backs t top m labels) {g : Folder Text} {e : StoreEntry}
    (hpath : Path.segments path = above ++ [name])
    (habove : m.tree.node? above = some (.folder g)) (hfree : g.child? name = none)
    (hcreate : m.createFile path content = (.ok e, m')) (hlabel : label ∉ top :: labels) :
    ∃ dir t' labels',
      (above.foldlM (t.put label { name, content := some content }).child top
        : Except Failure Text) = .ok dir
      ∧ (addChild dir label).outcome (t.put label { name, content := some content }) = (.ok (), t')
      ∧ Backs t' top m' labels' := by
  have hother (l : Text) (hl : l ∈ top :: labels) :
      (t.put label { name, content := some content }).node l = t.node l := by
    rw [node_put, if_neg fun he : l = label => hlabel (he ▸ hl)]
  have hnode : (t.put label { name, content := some content }).node label
      = { name, content := some content } := by
    rw [node_put, if_pos rfl]
  generalize t.put label { name, content := some content } = made at hother hnode
  have htop := hother top List.mem_cons_self
  have hholds : Holds made top (made.node top).children m.tree labels := by
    rw [htop]
    exact h.holds.congr fun l hl => hother l (List.mem_cons_of_mem _ hl)
  have hchild : Stands made label (.file content) [] := .file (by rw [hnode]) (by rw [hnode])
  have hapart : (top :: labels ++ [label]).Nodup := by
    rw [List.nodup_append']
    exact ⟨h.nodup, List.nodup_singleton label, List.disjoint_singleton.mpr hlabel⟩
  obtain ⟨dir, t', labels', hwalk, hrun, hadded, hperm, children, htop'⟩ :=
    outcome_addChild_at hholds habove hchild hapart (by rwa [hnode])
  obtain rfl : m' = { m with tree := m.tree.write (above ++ [name]) content } := by
    rw [Memory.createFile_of_free hpath habove hfree, Memory.put] at hcreate
    split at hcreate <;> cases hcreate
    rfl
  refine ⟨dir, t', labels', hwalk, hrun, ?_, hperm.nodup_iff.mpr hapart, ?_⟩
  · rwa [hnode] at hadded
  · rw [htop', htop]
    exact h.parentless

end Backs

end PipeShell.NodeTable
