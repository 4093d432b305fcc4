import PipeShell.Proofs.Disk.Picked
import PipeShell.Proofs.Pattern.Limits
import PipeShell.Proofs.Shell.FileCommands
import PipeShell.Proofs.Shell.Shown

/-!
# Paths that commands show

A command that is given no path with a root of its own keeps the working directory and the names in
the store in normal form, and shows only paths in normal form.
-/

namespace PipeShell

open PipeShell.Action PipeShell.Path

/-- The working directory is in normal form, every name in the store can stand in such a path, and
the picker starts from a place of segments. On disk the program runs in the directory at `here`. -/
structure ShellState.Tidy (here : List Text) (s : ShellState) : Prop where
  cwd : Normal s.shell.cwd
  world : s.world.Tidy IsName here
  picker : ∀ p ∈ s.shell.picker, ∀ t ∈ p.base.segmentsFrom here, IsSegment t

/-- The paths that the user gave. -/
def Args.userPaths (args : Args) : List Text :=
  [Key.path, .source, .dest, .left, .right].filterMap args.text? ++ args.sourcePaths

/-- No path that the user gave keeps a root of its own. -/
def Args.StaysInside (args : Args) : Prop :=
  ∀ path ∈ args.userPaths, ¬KeepsOwnRoot path

namespace Command

variable {here : List Text} {α : Type} {P : α → Prop} {v : Verb} {args : Args} {path : Text}

/-- The action keeps states tidy, and its failures show only paths in normal form. -/
abbrev Keeps (here : List Text) (x : Action ShellState α) (P : α → Prop) : Prop :=
  x.Yields (ShellState.Tidy here) P Failure.ShowsNormal

theorem keeps_liftM {x : Action World α} {E : Failure → Prop}
    (hx : x.Yields (World.Tidy IsName here) P E) (hE : ∀ f, E f → f.ShowsNormal) :
    Keeps here (liftM x) P := by
  refine yields_of_outcome fun s hs => ?_
  rw [outcome_liftM_world]
  exact ⟨⟨hs.cwd, hx.kept _ hs.world, hs.picker⟩, (hx.result _ hs.world).mono (fun _ h => h) hE⟩

theorem keeps_store {x : Action World α} (hp : Normal path)
    (hx : (∀ s ∈ segments path, IsName s) →
      x.Yields (World.Tidy IsName here) P (Failure.Along path)) : Keeps here (liftM x) P :=
  keeps_liftM (hx hp.forward) fun _ hf => hf.showsNormal hp

theorem keeps_shell :
    Keeps here shell fun s =>
      Normal s.cwd ∧ ∀ p ∈ s.picker, ∀ t ∈ p.base.segmentsFrom here, IsSegment t :=
  yields_of_outcome fun _ hs => ⟨hs, hs.cwd, hs.picker⟩

theorem keeps_disk : Keeps here disk fun _ => True :=
  yields_of_outcome fun _ hs => ⟨hs, trivial⟩

theorem keeps_enter {cwd : Text} (h : Normal cwd) : Keeps here (enter cwd) fun _ => True :=
  yields_of_outcome fun _ hs => ⟨⟨h, hs.world, hs.picker⟩, trivial⟩

theorem keeps_resolve {path : Option Text} (h : ¬KeepsOwnRoot (path.getD [])) :
    Keeps here (resolve path) Normal :=
  yields_of_outcome fun _ hs => ⟨hs, normal_resolve hs.cwd h⟩

/-! ## Paths of the user -/

theorem not_keepsOwnRoot (ha : args.StaysInside) {key : Key}
    (hk : key ∈ [Key.path, .source, .dest, .left, .right]) (h : args.text? key = some path) :
    ¬KeepsOwnRoot path :=
  ha path (List.mem_append_left _ (List.mem_filterMap.mpr ⟨key, hk, h⟩))

theorem keeps_resolve_path (ha : args.StaysInside) :
    Keeps here (resolve (args.text? .path)) Normal := by
  refine keeps_resolve ?_
  cases h : args.text? .path with
  | none => exact not_keepsOwnRoot_nil
  | some path => exact not_keepsOwnRoot ha (by simp) h

theorem keeps_given (ha : args.StaysInside) (path : Text) (h : args.text? .path = some path) :
    Keeps here (resolve (some path)) Normal :=
  keeps_resolve (not_keepsOwnRoot ha (by simp) h)

theorem keeps_withPath (ha : args.StaysInside) {form : Text} {run : Text → Command}
    (hrun : ∀ target, Normal target → Keeps here (run target) (Result.ShowsNormal v)) :
    Keeps here (withPath args form run) (Result.ShowsNormal v) :=
  yields_withPath (fun _ => Shows.usage.normal_nil) (keeps_given ha) hrun

theorem keeps_withPaths (ha : args.StaysInside) {form : Text} {run : Text → Text → Command}
    (hrun : ∀ source dest, Normal source → Normal dest →
      Keeps here (run source dest) (Result.ShowsNormal v)) :
    Keeps here (withPaths args form run) (Result.ShowsNormal v) := by
  rw [withPaths]
  split
  · rename_i a b hsource hdest
    refine (keeps_resolve (not_keepsOwnRoot ha (by simp) hsource)).bind fun source hs => ?_
    refine (keeps_resolve (not_keepsOwnRoot ha (by simp) hdest)).bind fun dest hd => ?_
    refine (keeps_store hd Store.yields_isDirectory).bind fun into _ => hrun _ _ hs ?_
    split
    · exact normal_join (by simpa using ⟨hd.forward, forward_name hs.forward⟩)
    · exact hd
  · exact yields_pure Shows.usage.normal_nil

/-! ## Files -/

theorem keeps_makeDirectory (ha : args.StaysInside) :
    Keeps here (makeDirectory args) (Result.ShowsNormal .makeDirectory) :=
  keeps_withPath ha fun _ ht =>
    (keeps_store ht Store.yields_createDirectory).bind fun _ _ =>
      yields_pure (Shows.madeDirectory.normal_one ht)

theorem keeps_createEmpty (ha : args.StaysInside) :
    Keeps here (createEmpty args) (Result.ShowsNormal .createEmpty) :=
  yields_createEmpty (fun _ => Shows.usage.normal_nil) (keeps_given ha)
    (fun _ ht => keeps_store ht Store.yields_holds)
    (fun _ ht => keeps_store ht Store.yields_isDirectory)
    (fun _ ht => keeps_store ht fun h => Store.yields_createFile h [])
    (fun _ ht => Shows.fileExists.normal_one ht) fun _ ht => Shows.created.normal_one ht

theorem keeps_remove (ha : args.StaysInside) :
    Keeps here (remove args) (Result.ShowsNormal .remove) :=
  yields_remove (fun _ => Shows.usage.normal_nil) (keeps_given ha)
    (fun _ ht => keeps_store ht Store.yields_isDirectory)
    (fun _ ht => keeps_store ht Store.yields_deleteFile)
    (fun _ _ ht => keeps_store ht Store.yields_deleteDirectory)
    (fun _ ht => Shows.isDirectory.normal_one ht) fun _ ht => Shows.removed.normal_one ht

theorem keeps_removeDirectory (ha : args.StaysInside) :
    Keeps here (removeDirectory args) (Result.ShowsNormal .removeDirectory) :=
  keeps_withPath ha fun _ ht =>
    (keeps_store ht Store.yields_deleteDirectory).bind fun _ _ =>
      yields_pure (Shows.removedDirectory.normal_one ht)

theorem keeps_store_two {x : Action World α} {source dest : Text} (hs : Normal source)
    (hd : Normal dest)
    (hx : (∀ s ∈ segments source, IsName s) → (∀ s ∈ segments dest, IsName s) →
      x.Yields (World.Tidy IsName here) P fun f => f.Along source ∨ f.Along dest) :
    Keeps here (liftM x) P :=
  keeps_liftM (hx hs.forward hd.forward) fun _ hf =>
    hf.elim (·.showsNormal hs) (·.showsNormal hd)

theorem keeps_move (ha : args.StaysInside) :
    Keeps here (move args) (Result.ShowsNormal .move) :=
  keeps_withPaths ha fun _ _ hs hd =>
    (keeps_store_two hs hd Store.yields_move).bind fun _ _ =>
      yields_pure (Shows.moved.normal_two hs hd)

theorem keeps_copy (ha : args.StaysInside) :
    Keeps here (copy args) (Result.ShowsNormal .copy) :=
  keeps_withPaths ha fun _ _ hs hd =>
    (keeps_store_two hs hd Store.yields_copy).bind fun _ _ =>
      yields_pure (Shows.copied.normal_two hs hd)

/-! ## Files of the host -/

theorem keeps_storePicked {files : List PickedFile} (h : ∀ file ∈ files, Forward file.name) :
    Keeps here (storePicked files) fun targets => ∀ target ∈ targets, Normal target := by
  induction files with
  | nil => exact yields_pure (by simp)
  | cons file files ih =>
      refine keeps_shell.bind fun s hs => ?_
      have htarget : Normal (join [s.cwd, file.name]) :=
        normal_join (by simpa using ⟨hs.1.forward, h file (by simp)⟩)
      refine (keeps_store htarget fun h => Store.yields_createFile h _).bind fun _ _ => ?_
      refine (ih fun f hf => h f (by simp [hf])).bind fun targets htargets => ?_
      exact yields_pure (by simpa using ⟨htarget, htargets⟩)

theorem keeps_importFiles :
    Keeps here (importFiles args) (Result.ShowsNormal .importFiles) := by
  refine keeps_shell.bind fun s hs => ?_
  split
  · exact yields_pure Shows.noImport.normal_nil
  · exact yields_pure Shows.nothingPicked.normal_nil
  · exact yields_pure Shows.nothingPicked.normal_nil
  · rename_i picker requested _ hpicker _
    have hbase : picker.base.Proper := fun t ht => hs.2 picker hpicker t (by
      unfold Address.segmentsFrom
      split <;> simp [ht])
    refine keeps_disk.bind fun d _ => ?_
    refine (yields_liftM_except ((Picker.pickAll_gives hbase requested d).mono (fun _ h => h)
      fun _ => Failure.showsNormal_silent)).bind fun picked hpicked => ?_
    refine (keeps_storePicked hpicked).bind fun targets htargets => ?_
    exact yields_pure ⟨targets, .imported, htargets⟩

theorem keeps_exportFile (ha : args.StaysInside) :
    Keeps here (exportFile args) (Result.ShowsNormal .exportFile) := by
  refine keeps_withPath ha fun target ht => ?_
  refine keeps_shell.bind fun s hs => ?_
  split
  · exact yields_pure Shows.noExport.normal_nil
  · rename_i picker hpicker
    refine (keeps_store ht Store.yields_read).bind fun content _ => ?_
    refine (keeps_liftM (Picker.yields_save_onDisk (hs.2 picker hpicker) _ content)
      fun _ => Failure.showsNormal_silent).bind fun location _ => ?_
    exact yields_pure (Shows.exported.normal_one ht)

/-! ## Directories -/

theorem keeps_printWorkingDirectory :
    Keeps here printWorkingDirectory (Result.ShowsNormal .printWorkingDirectory) :=
  keeps_shell.bind fun _ hs => yields_pure (Shows.workingDirectory.normal_one hs.1)

theorem keeps_goTo {cwd : Text} (h : Normal cwd) :
    Keeps here (goTo cwd) (Result.ShowsNormal .changeDirectory) :=
  (keeps_enter h).bind fun _ _ => yields_pure Shows.entered.normal_nil

theorem keeps_changeDirectory (ha : args.StaysInside) :
    Keeps here (changeDirectory args) (Result.ShowsNormal .changeDirectory) := by
  rw [changeDirectory]
  split
  · exact keeps_goTo normal_nil
  · exact keeps_goTo normal_nil
  · rename_i path hpath
    refine (keeps_given ha _ hpath).bind fun target ht => ?_
    have hrest (missing : Bool) : Keeps here
        (if missing then return .fail ("Not a directory: " ++ display target) else goTo target)
        (Result.ShowsNormal .changeDirectory) :=
      yields_ite (fun _ => yields_pure (Shows.noDirectory.normal_one ht)) fun _ => keeps_goTo ht
    refine yields_ite (fun _ => hrest false) fun _ => ?_
    exact (keeps_store ht Store.yields_isDirectory).bind fun d _ => hrest !d

theorem keeps_requireDirectory {target : Text} (ht : Normal target) :
    Keeps here (requireDirectory target) fun _ => True := by
  refine yields_ite (fun _ => ?_) fun _ => yields_pure trivial
  refine (keeps_store ht Store.yields_isDirectory).bind fun d _ => ?_
  refine yields_ite (fun _ => ?_) fun _ => yields_pure trivial
  refine (keeps_store ht Store.yields_holds).bind fun held _ => ?_
  exact yields_ite (fun _ => yields_throw (Failure.showsNormal_self rfl ht)) fun _ =>
    yields_throw (Failure.showsNormal_self rfl ht)

theorem slashless_of_admitted {e : StoreEntry} (h : e.Admitted IsName) : '/' ∉ e.name := by
  by_cases hne : e.name = []
  · simp [hne]
  · exact (h.name hne).slashless

theorem normal_of_admitted {e : StoreEntry} (h : e.Admitted IsName) : Normal e.path := by
  obtain ⟨names, hnames, hpath⟩ := h.path
  rw [hpath]
  exact normal_ofSegments hnames

/-- The entry that stands for a file in its own listing. -/
theorem admitted_self {target : Text} (h : Normal target) (d : Bool) :
    StoreEntry.Admitted IsName ⟨name target, target, d⟩ where
  name := StoreEntry.admits_getLastD h.forward
  path := normal_iff_exists_names.mp h

theorem shows_renderList (long : Bool) {es : List StoreEntry} (h : ∀ e ∈ es, e.Admitted IsName) :
    (Result.ok (renderList long es)).ShowsNormal .listDirectory := by
  cases long with
  | false => exact (Shows.names fun e he => slashless_of_admitted (h e he)).normal_nil
  | true => exact ⟨_, .entries, by simpa using fun e he => normal_of_admitted (h e he)⟩

theorem keeps_listDirectory (ha : args.StaysInside) :
    Keeps here (listDirectory args) (Result.ShowsNormal .listDirectory) := by
  refine (keeps_resolve_path ha).bind fun target ht => ?_
  have hrest (isFile : Bool) : Keeps here (do
      if isFile then
        return .ok (renderList (args.holds .long) [⟨name target, target, false⟩])
      requireDirectory target
      return .ok (renderList (args.holds .long) (ordered (childrenOf target (← Store.list target)))))
      (Result.ShowsNormal .listDirectory) := by
    refine yields_ite (fun _ => yields_pure (shows_renderList _ ?_)) fun _ => ?_
    · simpa using admitted_self ht false
    refine (keeps_requireDirectory ht).bind fun _ _ => ?_
    refine (keeps_store ht Store.yields_list).bind fun entries hentries => ?_
    refine yields_pure (shows_renderList _ fun e he => hentries e ?_)
    exact (List.mem_filter.mp (List.mem_mergeSort.mp he)).1
  refine (keeps_store ht Store.yields_holds).bind fun held _ => ?_
  refine yields_ite (fun _ => hrest false) fun _ => ?_
  refine yields_ite (fun _ => ?_) fun _ => hrest false
  exact (keeps_store ht Store.yields_isDirectory).bind fun d _ => hrest !d

theorem keeps_tree (ha : args.StaysInside) :
    Keeps here (tree args) (Result.ShowsNormal .tree) := by
  refine (keeps_resolve_path ha).bind fun target ht => ?_
  refine (keeps_requireDirectory ht).bind fun _ _ => ?_
  refine (keeps_store ht Store.yields_list).bind fun entries hentries => ?_
  refine yields_pure (Shows.normal_one (.tree fun e he => ?_) ht)
  exact slashless_of_admitted (hentries e he)

/-! ## Texts -/

theorem keeps_readAll {paths : List Text} (h : ∀ path ∈ paths, ¬KeepsOwnRoot path) :
    Keeps here (readAll paths) fun _ => True := by
  induction paths with
  | nil => exact yields_pure trivial
  | cons path paths ih =>
      have hpath : ¬KeepsOwnRoot ((some path).getD []) := h path (by simp)
      refine (keeps_resolve hpath).bind fun target ht => ?_
      refine (keeps_store ht Store.yields_read).bind fun content _ => ?_
      exact (ih fun p hp => h p (by simp [hp])).bind fun _ _ => yields_pure trivial

theorem keeps_input (ha : args.StaysInside) (piped : Option Text) :
    Keeps here (input args piped) fun _ => True := by
  unfold input
  split
  · exact yields_pure trivial
  · exact yields_pure trivial
  · refine (keeps_readAll fun path hp => ha path ?_).bind fun _ _ => yields_pure trivial
    exact List.mem_append_right _ hp

theorem keeps_withInput (ha : args.StaysInside) {piped : Option Text} {form : Text}
    {run : Text → Command} (hrun : ∀ content, Keeps here (run content) (Result.ShowsNormal v)) :
    Keeps here (withInput args piped form run) (Result.ShowsNormal v) := by
  refine (keeps_input ha piped).bind fun content _ => ?_
  cases content with
  | none => exact yields_pure Shows.usage.normal_nil
  | some content => exact hrun content

theorem keeps_pathless {out : Text} (hv : v.isPathless) :
    Keeps here (pure (.ok out)) (Result.ShowsNormal v) :=
  yields_pure (Shows.pathless hv).normal_nil

theorem keeps_concatenate (ha : args.StaysInside) (piped : Option Text) :
    Keeps here (concatenate args piped) (Result.ShowsNormal .concatenate) :=
  keeps_withInput ha fun _ => keeps_pathless rfl

theorem keeps_read (ha : args.StaysInside) :
    Keeps here (read args) (Result.ShowsNormal .read) := by
  rw [read]
  split
  · exact yields_pure Shows.usage.normal_nil
  · rename_i path hpath
    refine (keeps_given ha _ hpath).bind fun target ht => ?_
    exact (keeps_store ht Store.yields_read).bind fun _ _ => keeps_pathless rfl

theorem keeps_write (ha : args.StaysInside) (piped : Option Text) :
    Keeps here (write args piped) (Result.ShowsNormal .write) :=
  yields_write (fun _ => Shows.usage.normal_nil) (keeps_given ha)
    (fun _ ht => keeps_store ht Store.yields_holds) piped
    (fun _ ht => keeps_store ht Store.yields_read)
    (fun _ content ht => keeps_store ht fun h => Store.yields_write h content)
    (fun _ content ht => keeps_store ht fun h => Store.yields_createFile h content)
    fun _ ht => Shows.written.normal_one ht

theorem keeps_echo : Keeps here (echo args) (Result.ShowsNormal .echo) :=
  keeps_pathless rfl

theorem count?_silent (t : Text) : Attempt.Gives (Numeral.count? t) (fun _ => True) Failure.Silent := by
  refine Attempt.gives_of (fun _ _ => trivial) fun f hf => ?_
  rw [Numeral.count?] at hf
  split at hf
  · cases hf
  · unfold Numeral.read at hf
    split at hf
    · cases hf
    · cases hf
      rfl

theorem keeps_lineWindow (ha : args.StaysInside) (piped : Option Text) (fromEnd : Bool)
    (hv : v.isPathless) : Keeps here (lineWindow fromEnd args piped) (Result.ShowsNormal v) := by
  unfold lineWindow
  split
  · rename_i operand _ _
    refine (yields_liftM_except ((count?_silent operand).mono (fun _ h => h)
      fun _ => Failure.showsNormal_silent)).bind fun n _ => keeps_pathless hv
  · exact keeps_pathless hv
  · rename_i path hpath
    refine (keeps_given ha _ hpath).bind fun target ht => ?_
    exact (keeps_store ht Store.yields_read).bind fun _ _ => keeps_pathless hv
  · exact yields_pure Shows.usage.normal_nil

theorem keeps_sort {collate : Collation} (ha : args.StaysInside) (piped : Option Text) :
    Keeps here (sort collate args piped) (Result.ShowsNormal .sort) :=
  keeps_withInput ha fun _ =>
    yields_ite (fun _ => yields_throw (Failure.showsNormal_silent rfl)) fun _ => keeps_pathless rfl

theorem keeps_deduplicate (ha : args.StaysInside) (piped : Option Text) :
    Keeps here (deduplicate args piped) (Result.ShowsNormal .deduplicate) :=
  keeps_withInput ha fun _ => keeps_pathless rfl

theorem keeps_wordCount (ha : args.StaysInside) (piped : Option Text) :
    Keeps here (wordCount args piped) (Result.ShowsNormal .wordCount) := by
  refine keeps_withInput ha fun content => ?_
  dsimp only
  split
  · exact keeps_pathless rfl
  · exact keeps_pathless rfl

theorem keeps_compare (ha : args.StaysInside) :
    Keeps here (compare args) (Result.ShowsNormal .compare) := by
  rw [compare]
  split
  · rename_i left right hleft hright
    refine (keeps_resolve (not_keepsOwnRoot ha (by simp) hleft)).bind fun p hp => ?_
    refine (keeps_resolve (not_keepsOwnRoot ha (by simp) hright)).bind fun q hq => ?_
    refine (keeps_store hp Store.yields_read).bind fun old _ => ?_
    refine (keeps_store hq Store.yields_read).bind fun new _ => ?_
    exact yields_ite (fun _ => yields_pure Shows.identical.normal_nil) fun _ =>
      yields_pure (Shows.compared.normal_two hp hq)
  · exact yields_pure Shows.usage.normal_nil

theorem keeps_search (ha : args.StaysInside) (piped : Option Text) :
    Keeps here (search args piped) (Result.ShowsNormal .search) := by
  rw [search]
  split
  · exact yields_pure Shows.usage.normal_nil
  · rename_i source _
    split
    · rename_i f hf
      refine yields_throw (Failure.showsNormal_silent ?_)
      rcases (Pattern.read_limit source).failed hf with rfl | rfl | ⟨n, rfl⟩ <;> rfl
    · exact yields_pure Shows.noPattern.normal_nil
    · split
      · exact keeps_pathless rfl
      · rename_i path hpath
        refine (keeps_given ha _ hpath).bind fun target ht => ?_
        exact (keeps_store ht Store.yields_read).bind fun _ _ => keeps_pathless rfl
      · exact yields_pure Shows.usage.normal_nil

/-! ## The shell -/

theorem keeps_help : Keeps here (help args) (Result.ShowsNormal .help) := by
  refine keeps_shell.bind fun s _ => ?_
  dsimp only
  split
  · split
    · exact yields_pure Shows.noHelp.normal_nil
    · exact keeps_pathless rfl
  · exact keeps_pathless rfl

theorem keeps_clearScreen : Keeps here clearScreen (Result.ShowsNormal .clearScreen) := by
  refine keeps_shell.bind fun s _ => ?_
  refine yields_ite (fun _ => ?_) fun _ => keeps_pathless rfl
  exact (keeps_liftM World.yields_countClear fun _ => Failure.showsNormal_silent).bind fun _ _ =>
    keeps_pathless rfl

theorem megabytes_silent (bytes : Nat) :
    Attempt.Gives (megabytes bytes) (fun _ => True) Failure.Silent := by
  refine Attempt.gives_of (fun _ _ => trivial) fun f hf => ?_
  simp only [megabytes] at hf
  split at hf
  · cases hf
    rfl
  · cases hf

theorem keeps_storageInfo : Keeps here storageInfo (Result.ShowsNormal .storageInfo) := by
  have hnumber (bytes : Nat) : Keeps here (liftM (megabytes bytes)) fun _ => True :=
    yields_liftM_except ((megabytes_silent bytes).mono (fun _ h => h)
      fun _ => Failure.showsNormal_silent)
  refine (keeps_liftM Store.yields_storageInfo fun _ => Failure.showsNormal_silent).bind
    fun info _ => ?_
  split
  · exact yields_pure Shows.noStorageInfo.normal_nil
  · refine yields_ite (fun _ => yields_pure Shows.noStorageInfo.normal_nil) fun _ => ?_
    refine (hnumber _).bind fun used _ => ?_
    exact (hnumber _).bind fun quota _ => keeps_pathless rfl

theorem keeps_resetAll : Keeps here resetAll (Result.ShowsNormal .resetAll) :=
  (keeps_liftM Store.yields_clear fun _ => Failure.showsNormal_silent).bind fun _ _ =>
    (keeps_enter normal_nil).bind fun _ _ => keeps_pathless rfl

/-- Every command, given no path with a root of its own, keeps tidy states and shows only paths in
normal form. -/
theorem keeps_ofVerb (ha : v ≠ .importFiles → args.StaysInside) (piped : Option Text) :
    Keeps here (ofVerb v args piped) (Result.ShowsNormal v) := by
  cases v with
  | help => exact keeps_help
  | listDirectory => exact keeps_listDirectory (ha (by simp))
  | concatenate => exact keeps_concatenate (ha (by simp)) piped
  | read => exact keeps_read (ha (by simp))
  | makeDirectory => exact keeps_makeDirectory (ha (by simp))
  | createEmpty => exact keeps_createEmpty (ha (by simp))
  | remove => exact keeps_remove (ha (by simp))
  | removeDirectory => exact keeps_removeDirectory (ha (by simp))
  | move => exact keeps_move (ha (by simp))
  | copy => exact keeps_copy (ha (by simp))
  | printWorkingDirectory => exact keeps_printWorkingDirectory
  | changeDirectory => exact keeps_changeDirectory (ha (by simp))
  | clearScreen => exact keeps_clearScreen
  | tree => exact keeps_tree (ha (by simp))
  | head => exact keeps_lineWindow (ha (by simp)) piped false rfl
  | tail => exact keeps_lineWindow (ha (by simp)) piped true rfl
  | search => exact keeps_search (ha (by simp)) piped
  | wordCount => exact keeps_wordCount (ha (by simp)) piped
  | compare => exact keeps_compare (ha (by simp))
  | sort => exact keeps_sort (ha (by simp)) piped
  | deduplicate => exact keeps_deduplicate (ha (by simp)) piped
  | echo => exact keeps_echo
  | write => exact keeps_write (ha (by simp)) piped
  | importFiles => exact keeps_importFiles
  | exportFile => exact keeps_exportFile (ha (by simp))
  | storageInfo => exact keeps_storageInfo
  | resetAll => exact keeps_resetAll

end Command

end PipeShell
