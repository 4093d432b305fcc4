import PipeShell.Proofs.Folder.Arranged
import PipeShell.Proofs.Shell.Listing
import PipeShell.Proofs.Shell.Stage
import PipeShell.Proofs.Store.Listed
import PipeShell.Proofs.Store.Settled

/-!
# The children of a directory in its listing

A listing has the entries of all levels in the order of a store. Those with one parent, put in the
order of listings, are the children of that directory in the arranged store.
-/

namespace PipeShell

open PipeShell.Path (segments ofSegments IsSegment)

namespace Memory

theorem parent_entry {names : List Text} (hnames : ∀ s ∈ names, IsSegment s) (kind : Bool) :
    (Path.parentAndName (entry names kind).path).1 = ofSegments names.dropLast := by
  rw [Path.parentAndName, entry, Path.segments_ofSegments hnames]

theorem precedes_entry {a b : Text × Bool} (h : ListedBefore a b) (path : List Text) :
    (entry (path ++ [a.1]) a.2).precedes (entry (path ++ [b.1]) b.2) = true := by
  rcases h with ⟨ha, hb⟩ | ⟨hkind, hlt⟩
  · rw [StoreEntry.precedes_of_ne (by simp [entry, ha, hb])]
    exact ha
  · have hname (c : Text × Bool) : (entry (path ++ [c.1]) c.2).name = c.1 := by simp [entry]
    rw [StoreEntry.precedes_iff hkind, hname, hname]
    exact fun hback => List.lt_irrefl _ (List.lt_trans hlt hback)

end Memory

namespace Folder

variable {α : Type} {f inside : Folder α} {root path : List Text}

/-- What a store lists for a folder that stands at a path. -/
def listing (root : List Text) (f : Folder α) : List StoreEntry :=
  f.kinds.map fun e => Memory.entry (root ++ e.1) e.2

/-- The entries of a folder itself that stands at a path. -/
def level (root : List Text) (f : Folder α) : List StoreEntry :=
  f.children.map fun c => Memory.entry (root ++ [c.1]) c.2

theorem isSegment_of_mem_kinds (hf : f.Tidy IsSegment) {e : List Text × Bool} (he : e ∈ f.kinds) :
    ∀ s ∈ e.1, IsSegment s := by
  obtain ⟨-, hb⟩ := (mem_kinds hf).mp he
  exact hf.admits_of_bound fun hnone => by simp [hnone] at hb

theorem isSegment_below (hf : f.Tidy IsSegment) (hroot : ∀ s ∈ root, IsSegment s)
    {e : List Text × Bool} (he : e ∈ f.kinds) : ∀ s ∈ root ++ e.1, IsSegment s :=
  List.forall_mem_append.mpr ⟨hroot, isSegment_of_mem_kinds hf he⟩

theorem placed_of_mem_listing (hf : f.Tidy IsSegment) (hroot : ∀ s ∈ root, IsSegment s)
    {e : StoreEntry} (he : e ∈ f.listing root) : e.Placed := by
  obtain ⟨below, hbelow, rfl⟩ := List.mem_map.mp he
  exact ⟨root ++ below.1, by simp [((mem_kinds hf).mp hbelow).1], isSegment_below hf hroot hbelow,
    rfl, rfl⟩

theorem map_listing (hf : f.Tidy IsSegment) (hroot : ∀ s ∈ root, IsSegment s) :
    (f.listing root).map (fun e => (segments e.path, e.isDirectory))
      = f.kinds.map fun e => (root ++ e.1, e.2) := by
  rw [listing, List.map_map]
  refine List.map_congr_left fun e he => ?_
  rw [Function.comp_apply, Memory.entry, Path.segments_ofSegments (isSegment_below hf hroot he)]

/-- The children of a directory are the entries of a listing that name it as their parent. -/
theorem childrenOf_listing (hf : f.Tidy IsSegment) (hroot : ∀ s ∈ root, IsSegment s)
    (h : f.node? path = some (.folder inside)) :
    Command.childrenOf (ofSegments (root ++ path)) (f.listing root)
      = inside.level (root ++ path) := by
  have hpath : ∀ s ∈ root ++ path, IsSegment s :=
    List.forall_mem_append.mpr
      ⟨hroot, hf.admits_of_bound fun hnone => by simp [binding?, h] at hnone⟩
  -- A listing tells parents by their paths, and segments can be told from those.
  have hparent : ∀ e ∈ f.kinds,
      decide ((Path.parentAndName (Memory.entry (root ++ e.1) e.2).path).1
          = ofSegments (root ++ path))
        = decide (e.1.dropLast = path) := by
    intro e he
    have hbelow := isSegment_below hf hroot he
    rw [Memory.parent_entry hbelow, decide_eq_decide]
    constructor
    · intro heq
      have hnames := Path.ofSegments_injective (fun s hs => hbelow s (List.dropLast_subset _ hs))
        hpath heq
      rw [List.dropLast_append_of_ne_nil ((mem_kinds hf).mp he).1] at hnames
      exact List.append_cancel_left hnames
    · rintro rfl
      rw [List.dropLast_append_of_ne_nil ((mem_kinds hf).mp he).1]
  rw [Command.childrenOf, listing, List.filter_map, Function.comp_def, List.filter_congr hparent,
    filter_kinds_children hf h, level, List.map_map]
  refine List.map_congr_left fun c _ => ?_
  rw [Function.comp_apply, List.append_assoc]

theorem ordered_level (hf : f.Tidy IsSegment) (ho : f.Ordered) (path : List Text) :
    Command.ordered (f.level path) = f.level path := by
  have hpairwise : (f.level path).Pairwise fun a b => a.precedes b = true := by
    rw [level, List.pairwise_map]
    exact (pairwise_children hf ho).imp fun h => Memory.precedes_entry h path
  exact List.mergeSort_of_pairwise hpairwise

/-- In the order of listings the children of a directory are those of the arranged store. -/
theorem ordered_childrenOf_listing (hf : f.Tidy IsSegment) (hroot : ∀ s ∈ root, IsSegment s)
    (h : f.arrange.node? path = some (.folder inside)) :
    Command.ordered (Command.childrenOf (ofSegments (root ++ path)) (f.listing root))
      = inside.level (root ++ path) := by
  have harranged := tidy_arrange hf
  have hperm : (f.listing root).Perm (f.arrange.listing root) :=
    ((kinds_arrange_perm hf).map _).symm
  rw [Command.ordered_childrenOf_perm hperm fun e he => placed_of_mem_listing hf hroot he,
    childrenOf_listing harranged hroot h,
    ordered_level (harranged.node h) ((ordered_arrange hf).node h)]

end Folder

namespace Memory

variable {m : Memory} {path : Text} {inside : Folder Text}

theorem list_eq_listing (h : m.tree.node? (segments path) = some (.folder inside)) :
    m.list path = .ok (inside.listing (segments path)) := by
  rw [list_of_folder h, Folder.entriesUnder_append, List.map_map, Folder.listing, Folder.kinds,
    List.map_map]
  rfl

theorem list_eq_listing_root (m : Memory) : m.list [] = .ok (m.tree.listing []) :=
  list_eq_listing (Folder.node?_nil m.tree)

theorem isDirectory_iff_exists : m.isDirectory path = true
    ↔ ∃ inside, m.tree.node? (segments path) = some (.folder inside) :=
  isDirectory_iff.trans Folder.binding?_eq_directory

/-- The names on the way to something in a store are names of entries, of directories if it is one
itself. -/
theorem exists_named (hm : m.Tidy IsSegment) {es : List StoreEntry} (hlist : m.list [] = .ok es)
    {names : List Text} {b : Binding Text} (h : m.tree.binding? names = some b) {s : Text}
    (hs : s ∈ names) : ∃ e ∈ es, e.name = s ∧ (b = .directory → e.isDirectory = true) := by
  obtain ⟨above, below, rfl⟩ := List.append_of_mem hs
  rw [List.append_cons] at h
  have hbound : ∃ b', m.tree.binding? (above ++ [s]) = some b'
      ∧ (b = .directory → b' = .directory) := by
    by_cases hbelow : below = []
    · subst hbelow
      exact ⟨b, by simpa using h, id⟩
    · exact ⟨.directory, Folder.binding?_above hbelow (Option.ne_none_iff_exists'.mpr ⟨b, h⟩),
        fun _ => rfl⟩
  obtain ⟨b', hb', hdirectory⟩ := hbound
  have hkind : (above ++ [s], b'.content?.isNone) ∈ m.tree.kinds :=
    (Folder.mem_kinds hm).mpr ⟨by simp, by simp [hb']⟩
  obtain rfl := Except.ok.inj (m.list_eq_listing_root.symm.trans hlist)
  refine ⟨entry (above ++ [s]) b'.content?.isNone, List.mem_map.mpr ⟨_, hkind, rfl⟩,
    by simp [entry], fun hb => ?_⟩
  rw [hdirectory hb]
  rfl

end Memory

namespace Command

open PipeShell.Action

variable {s : ShellState} {m : Memory} {target : Text}

theorem outcome_requireDirectory (hw : s.world.backing = .memory m)
    (hdir : m.isDirectory target = true) : (requireDirectory target).outcome s = (.ok (), s) := by
  rw [requireDirectory]
  by_cases hroot : target = []
  · simp [hroot]
  · simp [hroot, outcome_bind, Store.outcome_isDirectory hw, hdir]

end Command

end PipeShell
