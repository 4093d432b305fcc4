import PipeShell.Proofs.Shell.TreeLines

/-!
# Listings of one level

A listing of a directory shows the entries that stand in it, the same ones that a tree of it shows
without a unit in front. So a walk along listings, from the root into every directory that they show,
meets all that a store holds. Only a directory with the name `..` cannot be entered by its path, which
steps back.
-/

namespace PipeShell

open PipeShell.Path (segments ofSegments IsSegment)

namespace Command

open PipeShell.Action

/-! ## What a listing shows -/

/-- The entries that a listing of the user's path shows. -/
def listedEntries (path : Option Text) : Action ShellState (List StoreEntry) := do
  let target ← resolve path
  let isFile ←
    if target = [] then pure false
    else if ← Store.holds target then pure (!(← Store.isDirectory target))
    else pure false
  if isFile then return [⟨Path.name target, target, false⟩]
  requireDirectory target
  return ordered (childrenOf target (← Store.list target))

theorem listDirectory_eq (args : Args) :
    listDirectory args
      = (fun es => .ok (renderList (args.holds .long) es)) <$> listedEntries (args.text? .path) := by
  have hite (c : Prop) [Decidable c] (f : List StoreEntry → Result)
      (x y : Action ShellState (List StoreEntry)) :
      f <$> (if c then x else y) = if c then f <$> x else f <$> y := by
    split <;> rfl
  simp only [listDirectory, listedEntries, map_bind, hite, map_pure]

/-- The entries that listings show on a walk from a user's path into all directories that they show.
A listing does not change the state, so each one starts from the same; `fuel` bounds the depth. -/
def walk (s : ShellState) : Nat → Text → List StoreEntry
  | 0, _ => []
  | fuel + 1, path =>
      match ((listedEntries (some path)).outcome s).1 with
      | .error _ => []
      | .ok es => es.flatMap fun e =>
          e :: if e.isDirectory then walk s fuel (Path.display e.path) else []

/-- The entries are the children of a directory among all entries of a store. -/
structure IsLevel (all : List StoreEntry) (target : Text) (es : List StoreEntry) : Prop where
  children : ∀ e, e ∈ es ↔ e ∈ all ∧ segments e.path = segments target ++ [e.name]
  distinct : es.Nodup
  sorted : es.Pairwise fun a b => ListedBefore (a.name, a.isDirectory) (b.name, b.isDirectory)

variable {s : ShellState} {m : Memory} {path : Option Text} {target : Text} {inside : Folder Text}
  {root : List Text}

theorem outcome_listedEntries (hm : m.Tidy IsSegment) (hw : s.world.backing = .memory m)
    (htarget : s.shell.resolve path = target) (hnormal : Path.Normal target)
    (h : m.tree.node? (segments target) = some (.folder inside)) :
    (listedEntries path).outcome s = (.ok (inside.arrange.level (segments target)), s) := by
  have hdir : m.isDirectory target = true := Memory.isDirectory_iff_exists.mpr ⟨inside, h⟩
  have hinside : inside.Tidy IsSegment := hm.node h
  have hlevel := Folder.ordered_childrenOf_listing hinside (Path.isSegment_segments target)
    (Folder.node?_nil inside.arrange)
  rw [List.append_nil, hnormal.ofSegments_segments] at hlevel
  have hlisted : (Except.ok (inside.arrange.level (segments target)) : Except Failure _)
      = Except.map (fun es => ordered (childrenOf target es)) (m.list target) := by
    rw [Memory.list_eq_listing h, ← hlevel]
    rfl
  simp [listedEntries, outcome_bind, htarget, outcome_requireDirectory hw hdir,
    Store.outcome_holds hw, Store.outcome_isDirectory hw, hdir, Store.outcome_list hw, hlisted]

/-! ## The entries of one level -/

theorem level_eq_filter (hm : m.Tidy IsSegment)
    (h : m.tree.node? (segments target) = some (.folder inside)) :
    inside.arrange.level (segments target)
      = (m.tree.arrange.kinds.filter fun e => e.1.dropLast = segments target).map
          fun e => Memory.entry e.1 e.2 := by
  have harranged : m.tree.arrange.node? (segments target) = some (.folder inside.arrange) := by
    rw [Folder.node?_arrange hm, h]
    rfl
  rw [Folder.filter_kinds_children (Folder.tidy_arrange hm) harranged, List.map_map, Folder.level]
  rfl

theorem dropLast_eq_iff_segments {names above : List Text} (hne : names ≠ [])
    (hnames : ∀ s ∈ names, IsSegment s) (kind : Bool) : names.dropLast = above
      ↔ segments (Memory.entry names kind).path = above ++ [(Memory.entry names kind).name] := by
  have hlast : names.getLastD [] = names.getLast hne := by
    rw [List.getLastD_eq_getLast?, List.getLast?_eq_some_getLast hne]
    rfl
  rw [Memory.entry, Path.segments_ofSegments hnames, hlast]
  constructor
  · intro hdrop
    rw [← hdrop, List.dropLast_concat_getLast]
  · intro hconcat
    rw [hconcat, List.dropLast_concat]

theorem isLevel_level (hm : m.Tidy IsSegment)
    (h : m.tree.node? (segments target) = some (.folder inside)) :
    IsLevel (m.tree.listing []) target (inside.arrange.level (segments target)) := by
  have hinside : inside.Tidy IsSegment := hm.node h
  have hsorted : (inside.arrange.level (segments target)).Pairwise fun a b =>
      ListedBefore (a.name, a.isDirectory) (b.name, b.isDirectory) := by
    rw [Folder.level, List.pairwise_map]
    simpa [Memory.entry] using
      Folder.pairwise_children (Folder.tidy_arrange hinside) (Folder.ordered_arrange hinside)
  have hdistinct : (inside.arrange.level (segments target)).Nodup := by
    refine hsorted.imp ?_
    rintro e _ hbefore rfl
    exact ListedBefore.irrefl _ hbefore
  refine ⟨fun e => ?_, hdistinct, hsorted⟩
  have hperm := Folder.kinds_arrange_perm hm
  have hplace {k : List Text × Bool} (hk : k ∈ m.tree.kinds) : k.1.dropLast = segments target
      ↔ segments (Memory.entry k.1 k.2).path = segments target ++ [(Memory.entry k.1 k.2).name] :=
    dropLast_eq_iff_segments ((Folder.mem_kinds hm).mp hk).1
      (Folder.isSegment_of_mem_kinds hm hk) k.2
  rw [level_eq_filter hm h, List.mem_map, Folder.listing, List.mem_map]
  constructor
  · rintro ⟨k, hk, rfl⟩
    obtain ⟨hk, hdrop⟩ := List.mem_filter.mp hk
    have hk := hperm.mem_iff.mp hk
    exact ⟨⟨k, hk, rfl⟩, (hplace hk).mp (by simpa using hdrop)⟩
  · rintro ⟨⟨k, hk, rfl⟩, hsegments⟩
    have hdrop := (hplace hk).mpr hsegments
    exact ⟨k, List.mem_filter.mpr ⟨hperm.mem_iff.mpr hk, by simpa using hdrop⟩, rfl⟩

/-- The rows of a tree without units in front are the entries of one level, in their order. -/
theorem filter_rows_level (hinside : inside.Tidy IsSegment) (hroot : ∀ s ∈ root, IsSegment s) :
    ((inside.rows root []).filter fun r => r.guides = []).map OutlineRow.kind
      = (inside.level root).map fun e => (segments e.path, e.isDirectory) := by
  -- All rows stand below the root, and one without units stands no deeper.
  have hfilter : (inside.rows root []).filter (fun r => r.guides = [])
      = (inside.rows root []).filter fun r => r.above = root := by
    refine List.filter_congr fun r hr => ?_
    have hdepth : r.above.length = root.length + r.guides.length :=
      Folder.length_above rfl r hr
    have hbelow := Folder.prefix_above hr
    rw [decide_eq_decide, ← List.length_eq_zero_iff]
    constructor
    · intro hguides
      exact (hbelow.eq_of_length (by omega)).symm
    · intro habove
      rw [habove] at hdepth
      omega
  rw [hfilter, Folder.filter_rows, Folder.level, List.map_map]
  refine List.map_congr_left fun c hc => ?_
  have hnames : ∀ s ∈ root ++ [c.1], IsSegment s :=
    List.forall_mem_append.mpr
      ⟨hroot, List.forall_mem_singleton.mpr (Folder.admits_of_mem_children hinside hc)⟩
  rw [Function.comp_apply, Memory.entry, Path.segments_ofSegments hnames]

/-! ## The walk -/

/-- When no directory steps back, a walk meets what the rows of the arranged store are about. -/
theorem walk_eq_rows (hm : m.Tidy IsSegment) (hw : s.world.backing = .memory m)
    (hnames : ∀ e ∈ m.tree.listing [], e.isDirectory = true → e.name ≠ ['.', '.'])
    {fuel : Nat} (hfuel : m.tree.kinds.length < fuel) :
    walk s fuel ['/']
      = (m.tree.arrange.rows [] []).map fun r => Memory.entry r.path r.isDirectory := by
  have harranged := Folder.tidy_arrange hm
  refine Folder.eq_map_rows (fun r => Memory.entry r.path r.isDirectory)
    (fun fuel path _ => walk s fuel (Path.display (ofSegments path))) [] harranged
    (fun fuel path guides level hlevel => ?_) (Folder.node?_nil m.tree.arrange)
    ((Folder.kinds_arrange_perm hm).length_eq ▸ hfuel)
  obtain ⟨inside, hinside, rfl⟩ := Folder.exists_folder_of_arrange hm hlevel
  have hbound : m.tree.binding? path = some .directory :=
    Folder.binding?_eq_directory.mpr ⟨inside, hinside⟩
  have hname : ∀ s ∈ path, Path.IsName s := by
    intro s hs
    obtain ⟨e, he, rfl, hdirectory⟩ := Memory.exists_named hm m.list_eq_listing_root hbound hs
    exact ⟨hm.admits_of_bound (by simp [hbound]) _ hs, hnames e he (hdirectory rfl)⟩
  have hsegments := Path.segments_ofSegments fun s hs => (hname s hs).toIsSegment
  have hnormal := Path.normal_ofSegments hname
  have hlisted := outcome_listedEntries hm hw (Path.resolve_display hnormal s.shell.cwd) hnormal
    (hsegments.symm ▸ hinside)
  rw [hsegments] at hlisted
  rw [walk, hlisted]
  dsimp only
  rw [Folder.level, List.flatMap_map]
  conv_lhs => rw [← List.zipIdx_map_fst 1 inside.arrange.children, List.flatMap_map]
  rfl

theorem walk_perm (hm : m.Tidy IsSegment) (hw : s.world.backing = .memory m)
    (hnames : ∀ e ∈ m.tree.listing [], e.isDirectory = true → e.name ≠ ['.', '.'])
    {fuel : Nat} (hfuel : m.tree.kinds.length < fuel) :
    (walk s fuel ['/']).Perm (m.tree.listing []) := by
  have hkinds : ((m.tree.arrange.rows [] []).map OutlineRow.kind).Perm m.tree.kinds := by
    rw [Folder.map_kind_rows]
    simpa using Folder.kinds_arrange_perm hm
  have hitems := hkinds.map fun e => Memory.entry e.1 e.2
  rw [List.map_map] at hitems
  rw [walk_eq_rows hm hw hnames hfuel]
  exact hitems

end Command

/-- A store with a file in a directory of the name `..`. -/
def Memory.behind : Memory :=
  { tree := .folder ['.', '.'] (.file ['x'] ['y'] .empty) .empty, quota := 10 }

theorem Memory.reached_behind : Memory.behind.Reached :=
  (Memory.Reached.fresh 10).call (w := .ofMemory { quota := 10 } {} {})
    (.createFile ['.', '.', '/', 'x'] ['y']) rfl rfl

namespace Command

open PipeShell.Action

variable {s : ShellState} {m : Memory}

/-- A listing of a directory shows its children and nothing else, each once, directories first and
then by name. They are what a tree of the directory shows without a unit in front, in the same order.
As long as no directory has the name `..`, a walk along listings, from the root into all directories
that they show, meets each entry of the store once. -/
theorem listings_complete (hm : m.Reached) (hw : s.world.backing = .memory m) :
    ∃ all, m.list [] = .ok all
      ∧ (∀ args target, s.shell.resolve (args.text? .path) = target → Path.Normal target →
          m.isDirectory target = true →
          ∃ es below rows, (listedEntries (args.text? .path)).outcome s = (.ok es, s)
            ∧ (listDirectory args).outcome s = (.ok (.ok (renderList (args.holds .long) es)), s)
            ∧ IsLevel all target es
            ∧ m.list target = .ok below
            ∧ (tree args).outcome s = (.ok (.ok (Text.join ['\n']
                (Path.display target :: rows.map OutlineRow.line))), s)
            ∧ IsOutline (segments target) (below.map fun e => (segments e.path, e.isDirectory)) rows
            ∧ (rows.filter fun r => r.guides = []).map OutlineRow.kind
                = es.map fun e => (segments e.path, e.isDirectory))
      ∧ ((∀ e ∈ all, e.isDirectory = true → e.name ≠ ['.', '.']) →
          ∀ fuel, all.length < fuel → (walk s fuel ['/']).Perm all ∧ all.Nodup) := by
  have htidy := hm.tidy
  refine ⟨_, m.list_eq_listing_root, fun args target htarget hnormal hdir => ?_, fun hnames fuel hfuel => ?_⟩
  · obtain ⟨inside, h⟩ := Memory.isDirectory_iff_exists.mp hdir
    have hinside : inside.Tidy IsSegment := htidy.node h
    have hsegments := Path.isSegment_segments target
    have hlisted := outcome_listedEntries htidy hw htarget hnormal h
    have hshown : (listDirectory args).outcome s = (.ok (.ok (renderList (args.holds .long)
        (inside.arrange.level (segments target)))), s) := by
      rw [listDirectory_eq, outcome_map, hlisted]
      rfl
    exact ⟨_, _, _, hlisted, hshown, isLevel_level htidy h, Memory.list_eq_listing h,
      outcome_tree htidy hw htarget hnormal h, Folder.isOutline_listing hinside hsegments,
      filter_rows_level (Folder.tidy_arrange hinside) hsegments⟩
  · have hlength : m.tree.kinds.length < fuel := by simpa [Folder.listing] using hfuel
    refine ⟨walk_perm htidy hw hnames hlength, ?_⟩
    obtain ⟨all, hall, hagrees⟩ := hm.exists_agrees
    obtain rfl := Except.ok.inj (hall.symm.trans m.list_eq_listing_root)
    exact List.Nodup.of_map _ hagrees.distinct

/-- The root does not show what its directory holds, and a walk meets it. -/
theorem listings_complete_nested :
    (∃ es, (listedEntries none).outcome nestedState = (.ok es, nestedState)
        ∧ ∀ e ∈ es, e.path ≠ ['d', '/', 'f'])
      ∧ (walk nestedState 4 ['/']).Perm
        [⟨['d'], ['d'], true⟩, ⟨['f'], ['d', '/', 'f'], false⟩, ⟨['a'], ['a'], false⟩] := by
  have hlist : Memory.nested.list [] = .ok [⟨['d'], ['d'], true⟩, ⟨['f'], ['d', '/', 'f'], false⟩,
      ⟨['a'], ['a'], false⟩] := rfl
  have hw : nestedState.world.backing = .memory Memory.nested := rfl
  obtain ⟨all, hall, hlevels, hwalk⟩ := listings_complete Memory.reached_nested hw
  obtain rfl := Except.ok.inj (hlist.symm.trans hall)
  obtain ⟨es, -, -, hrun, -, hlevel, -⟩ := hlevels [] [] rfl Path.normal_nil rfl
  refine ⟨⟨es, hrun, fun e he hpath => ?_⟩, (hwalk (by decide) 4 (by decide)).1⟩
  have hsegments := ((hlevel.children e).mp he).2
  rw [hpath] at hsegments
  have hlength := congrArg List.length hsegments
  simp [segments, Text.pieces] at hlength

/-- A shell at the root of a store with a file in a directory of the name `..`. -/
def behindState : ShellState :=
  ⟨{}, .ofMemory Memory.behind {} {}⟩

/-- The path of a directory with the name `..` leads back to the root, so no walk along listings meets
what the directory holds. -/
theorem walk_misses_behind :
    Memory.behind.Reached ∧ behindState.world.backing = .memory Memory.behind
      ∧ Memory.behind.list []
        = .ok [⟨['.', '.'], ['.', '.'], true⟩, ⟨['x'], ['.', '.', '/', 'x'], false⟩]
      ∧ ∀ fuel, ⟨['x'], ['.', '.', '/', 'x'], false⟩ ∉ walk behindState fuel ['/'] := by
  refine ⟨Memory.reached_behind, rfl, rfl, fun fuel => ?_⟩
  have hlisted {path : Text} (h : behindState.shell.resolve (some path) = []) :
      (listedEntries (some path)).outcome behindState
        = (.ok [⟨['.', '.'], ['.', '.'], true⟩], behindState) :=
    outcome_listedEntries Memory.reached_behind.tidy rfl h Path.normal_nil rfl
  -- Each round lists the root again, by its own path or by the one of the directory.
  have hmissed (path : Text) (h : behindState.shell.resolve (some path) = []) :
      ⟨['x'], ['.', '.', '/', 'x'], false⟩ ∉ walk behindState fuel path := by
    induction fuel generalizing path with
    | zero => exact List.not_mem_nil
    | succ fuel ih =>
        rw [walk, hlisted h]
        simpa using ih (Path.display ['.', '.']) rfl
  exact hmissed ['/'] rfl

end Command

end PipeShell
