import PipeShell.Proofs.Disk.Forward
import PipeShell.Proofs.Folder.Entries
import PipeShell.Proofs.Path.Resolve
import PipeShell.Proofs.Store.PathMap
import PipeShell.Proofs.Text.Utf8
import PipeShell.Proofs.Text.Within
import PipeShell.Store.Host
import PipeShell.Store.Memory

/-!
# Maps of paths on disk

A store on disk mirrors a map of paths when the disk holds below the root of the store what the map
binds. Its operations then end as the map says, and leave the rest of the disk alone.
-/

namespace PipeShell

theorem Disk.textOf_encode {t : Text} (h : '\r' ∉ t) : textOf .utf8 (Text.encode t) = .ok t := by
  rw [textOf, Encoding.decode, Text.decode_encode]
  simp [Except.map, Text.unifyNewlines_of_not_mem h]

namespace Host

open PipeShell.Action

variable {h : Host} {d d' d'' : Disk} {m m' : PathMap} {path : Text} {α : Type}

/-- The store keeps UTF-8 below a plain root, on a disk where names may have any length and no two
entries of a directory share one. -/
structure Fits (h : Host) (d : Disk) : Prop where
  encoding : h.encoding = .utf8
  root : Disk.Plain h.root
  unlimited : d.longestName = none
  distinct : d.tree.Distinct

/-- Below the root of the store the disk binds what the map binds, where a file holds the bytes of
its text. -/
def Mirrors (h : Host) (d : Disk) (m : PathMap) : Prop :=
  ∀ path, d.tree.binding? (h.root ++ path) = (m path).map (Binding.map Text.encode)

/-- The tree of the disk changed below the root of the store alone, and mirrors another map there. -/
structure Becomes (h : Host) (d d' : Disk) (m : PathMap) : Prop where
  same : d' = { d with tree := d'.tree }
  distinct : d'.tree.Distinct
  mirrors : h.Mirrors d' m
  apart : ∀ p, ¬h.root <+: p → d'.tree.binding? p = d.tree.binding? p

/-- How a change of a mirrored store ends. -/
inductive Ends (h : Host) (d : Disk) (m : PathMap) (refused : Prop) (update : PathMap)
    (answer : α → Prop) : Except Failure α × Disk → Prop
  | done {a d'} : ¬refused → answer a → h.Becomes d d' update →
      Ends h d m refused update answer (.ok a, d')
  | refused {f d'} : refused → h.Becomes d d' m → Ends h d m refused update answer (.error f, d')

theorem Becomes.refl (hf : h.Fits d) (hm : h.Mirrors d m) : h.Becomes d d m :=
  ⟨rfl, hf.distinct, hm, fun _ _ => rfl⟩

theorem Becomes.trans (h₁ : h.Becomes d d' m) (h₂ : h.Becomes d' d'' m') : h.Becomes d d'' m' where
  same := by
    rw [h₂.same, h₁.same]
  distinct := h₂.distinct
  mirrors := h₂.mirrors
  apart p hp := (h₂.apart p hp).trans (h₁.apart p hp)

theorem Fits.becomes (hf : h.Fits d) (hb : h.Becomes d d' m) : h.Fits d' where
  encoding := hf.encoding
  root := hf.root
  unlimited := by rw [hb.same]; exact hf.unlimited
  distinct := hb.distinct

/-! ## Places -/

theorem walk_of_plain {names : List Text} (hn : Disk.Plain names) : Path.walk names = names :=
  Path.walk_of_forward fun s hs => (hn s hs).1

variable (hf : h.Fits d) (hp : Disk.Plain (Path.segments path))
include hf hp

theorem plain_place : Disk.Plain (h.root ++ Path.segments path) :=
  fun s hs => (List.mem_append.mp hs).elim (hf.root s) (hp s)

theorem target_eq : h.target path = .ok (h.root ++ Path.segments path) := by
  have hnull : (Path.segments path).any (·.contains '\x00') = false := by
    simpa using fun s hs => (hp s hs).2
  simp only [target, hnull, walk_of_plain (plain_place hf hp), Bool.false_eq_true, if_false]
  rw [if_pos (List.isPrefixOf_iff_prefix.mpr (List.prefix_append _ _))]

theorem probe_eq : h.probe d path = .ok (d.tree.node? (h.root ++ Path.segments path)) := by
  rw [probe, target_eq hf hp]
  exact Disk.probe_ofSegments hf.unlimited (plain_place hf hp)

theorem existing_eq :
    h.existing d path = match d.tree.node? (h.root ++ Path.segments path) with
      | some n => .ok (h.root ++ Path.segments path, n)
      | none => .error (.noSuchEntry (Path.join [path])) := by
  rw [existing, target_eq hf hp]
  simp only [Attempt.ok_bind, Disk.probe_ofSegments hf.unlimited (plain_place hf hp)]
  cases d.tree.node? (h.root ++ Path.segments path) <;> rfl

variable (hm : h.Mirrors d m)
include hm

/-! ## Questions -/

omit hf hp in
theorem node_of_none {names : List Text} (hn : m names = none) :
    d.tree.node? (h.root ++ names) = none := by
  rw [← Folder.binding?_eq_none, hm names, hn]
  rfl

omit hf hp in
theorem node_of_directory {names : List Text} (hn : m names = some .directory) :
    ∃ inside, d.tree.node? (h.root ++ names) = some (.folder inside) := by
  rw [← Folder.binding?_eq_directory, hm names, hn]
  rfl

omit hf hp in
theorem node_of_file {names : List Text} {text : Text} (hn : m names = some (.file text)) :
    d.tree.node? (h.root ++ names) = some (.file (Text.encode text)) := by
  rw [← Folder.binding?_eq_file, hm names, hn]
  rfl

omit hf hp in
theorem binding_directory_iff {names : List Text} :
    d.tree.binding? (h.root ++ names) = some .directory ↔ m names = some .directory := by
  rw [hm names]
  constructor
  · intro hdir
    obtain ⟨b, hb, hmap⟩ := Option.map_eq_some_iff.mp hdir
    cases b with
    | directory => exact hb
    | file text => cases hmap
  · intro hdir
    rw [hdir]
    rfl

omit hf hp in
theorem binding_above {names : List Text} (hc : m.PrefixClosed)
    (habove : m names.dropLast = some .directory) (hfree : m names ≠ some .directory) :
    d.tree.binding? (h.root ++ names).dropLast = some .directory := by
  have hne : names ≠ [] := by
    rintro rfl
    exact hfree hc.root
  rw [List.dropLast_append_of_ne_nil hne, binding_directory_iff hm, habove]

theorem existingFile_of_file {text : Text} (hfile : m (Path.segments path) = some (.file text)) :
    h.existingFile d path = .ok (h.root ++ Path.segments path, Text.encode text) := by
  simp only [existingFile, existing_eq hf hp, node_of_file hm hfile, Attempt.ok_bind,
    Attempt.pure_eq_ok]

theorem existingFile_of_not_file (hfile : ¬m.IsFile (Path.segments path)) :
    ∃ f, h.existingFile d path = .error f := by
  rw [existingFile, existing_eq hf hp]
  cases hb : m (Path.segments path) with
  | none =>
      rw [node_of_none hm hb]
      exact ⟨_, rfl⟩
  | some b =>
      cases b with
      | file text => exact absurd ⟨text, hb⟩ hfile
      | directory =>
          obtain ⟨inside, hn⟩ := node_of_directory hm hb
          rw [hn]
          exact ⟨_, rfl⟩

theorem existingDirectory_of_directory (hdir : m (Path.segments path) = some .directory) :
    ∃ inside, d.tree.node? (h.root ++ Path.segments path) = some (.folder inside)
      ∧ h.existingDirectory d path = .ok (h.root ++ Path.segments path, inside) := by
  obtain ⟨inside, hn⟩ := node_of_directory hm hdir
  refine ⟨inside, hn, ?_⟩
  simp only [existingDirectory, existing_eq hf hp, hn, Attempt.ok_bind, Attempt.pure_eq_ok]

theorem existingDirectory_of_not_directory (hdir : m (Path.segments path) ≠ some .directory) :
    ∃ f, h.existingDirectory d path = .error f := by
  rw [existingDirectory, existing_eq hf hp]
  cases hb : m (Path.segments path) with
  | none =>
      rw [node_of_none hm hb]
      exact ⟨_, rfl⟩
  | some b =>
      cases b with
      | directory => exact absurd hb hdir
      | file text =>
          rw [node_of_file hm hb]
          exact ⟨_, rfl⟩

theorem read_of_file {text : Text} (hfile : m (Path.segments path) = some (.file text))
    (hplain : '\r' ∉ text) : h.read d path = .ok text := by
  simp only [read, existingFile_of_file hf hp hm hfile, Attempt.ok_bind, hf.encoding]
  exact Disk.textOf_encode hplain

theorem read_of_not_file (hfile : ¬m.IsFile (Path.segments path)) :
    ∃ f, h.read d path = .error f := by
  obtain ⟨f, hf⟩ := existingFile_of_not_file hf hp hm hfile
  exact ⟨f, by rw [read, hf]; rfl⟩

theorem holds_eq : h.holds d path = .ok (decide (m (Path.segments path) ≠ none)) := by
  rw [holds, probe_eq hf hp]
  cases hb : m (Path.segments path) with
  | none => simp [node_of_none hm hb]
  | some b =>
      cases b with
      | file text => simp [node_of_file hm hb]
      | directory =>
          obtain ⟨inside, hn⟩ := node_of_directory hm hb
          simp [hn]

theorem isDirectory_eq :
    h.isDirectory d path = .ok (decide (m (Path.segments path) = some .directory)) := by
  rw [isDirectory, probe_eq hf hp]
  cases hb : m (Path.segments path) with
  | none => simp [node_of_none hm hb]
  | some b =>
      cases b with
      | file text => simp [node_of_file hm hb]
      | directory =>
          obtain ⟨inside, hn⟩ := node_of_directory hm hb
          simp [hn]

theorem list_of_not_directory (hdir : m (Path.segments path) ≠ some .directory) :
    ∃ f, h.list d path = .error f := by
  obtain ⟨f, hf⟩ := existingDirectory_of_not_directory hf hp hm hdir
  exact ⟨f, by rw [list, hf]; rfl⟩

theorem list_of_directory (hdir : m (Path.segments path) = some .directory) :
    ∃ inside : Folder Bytes, d.tree.node? (h.root ++ Path.segments path) = some (.folder inside)
      ∧ h.list d path = .ok (inside.sortedEntries.map fun e =>
        ⟨e.1.getLastD [], Path.ofSegments (Path.segments path ++ e.1), e.2.isNone⟩) := by
  obtain ⟨inside, hn, he⟩ := existingDirectory_of_directory hf hp hm hdir
  refine ⟨inside, hn, ?_⟩
  simp only [list, he, Attempt.ok_bind, List.drop_left, Attempt.pure_eq_ok]

/-! ## Changes -/

omit hp in
theorem becomes_write {names : List Text} (hc : m.PrefixClosed)
    (habove : m names.dropLast = some .directory) (hfree : m names ≠ some .directory)
    (text : Text) :
    h.Becomes d { d with tree := d.tree.write (h.root ++ names) (Text.encode text) }
      (m.bindFile names text) := by
  have hne : h.root ++ names ≠ [] := by
    intro hnil
    exact hfree ((List.append_eq_nil_iff.mp hnil).2 ▸ hc.root)
  have hdir := binding_above hm hc habove hfree
  have hopen := mt (binding_directory_iff hm).mp hfree
  have hwrite := Folder.binding?_write hf.distinct hne hdir hopen (Text.encode text)
  refine ⟨rfl, Folder.tidy_write hf.distinct (fun _ _ => trivial) _, fun q => ?_, fun p hp => ?_⟩
  · rw [hwrite]
    by_cases hq : q = names
    · simp [hq, PathMap.bindFile, Binding.map]
    · simp [hq, PathMap.bindFile, hm q]
  · rw [hwrite, if_neg]
    rintro rfl
    exact hp (List.prefix_append _ _)

omit hp in
theorem becomes_erase {names : List Text} (hne : names ≠ [])
    (habove : m names.dropLast = some .directory) :
    h.Becomes d (d.erase (h.root ++ names)) (m.unbindBelow names) := by
  have hdir : d.tree.binding? (h.root ++ names).dropLast = some .directory := by
    rw [List.dropLast_append_of_ne_nil hne, binding_directory_iff hm, habove]
  have herase := Folder.binding?_erase hf.distinct (by simp [hne]) hdir
  refine ⟨rfl, Folder.tidy_erase hf.distinct fun _ _ => trivial, fun q => ?_, fun p hp => ?_⟩
  · rw [Disk.erase, herase]
    by_cases hq : names <+: q
    · simp [hq, PathMap.unbindBelow]
    · simp [hq, PathMap.unbindBelow, hm q]
  · rw [Disk.erase, herase, if_neg]
    exact fun h => hp ((List.prefix_append _ _).trans h)

omit hp in
theorem outcome_writeText {names : List Text} (hn : Disk.Plain names) (hc : m.PrefixClosed)
    (habove : m names.dropLast = some .directory) (hfree : m names ≠ some .directory)
    (text : Text) :
    ∃ d', (Disk.writeText h.encoding (.ofSegments (h.root ++ names)) text).outcome d = (.ok (), d')
      ∧ h.Becomes d d' (m.bindFile names text) := by
  have hplain : Disk.Plain (h.root ++ names) :=
    fun s hs => (List.mem_append.mp hs).elim (hf.root s) (hn s)
  have hbecomes := becomes_write hf hm hc habove hfree text
  have hwritten := Disk.written hf.unlimited hplain (Text.encode text)
  rw [hf.encoding]
  change ∃ d', (Disk.write (.ofSegments (h.root ++ names)) (Text.encode text)).outcome d = _ ∧ _
  generalize (Disk.write (.ofSegments (h.root ++ names)) (Text.encode text)).outcome d = out
    at hwritten ⊢
  cases hwritten with
  | written => exact ⟨_, rfl, hbecomes⟩
  | refused hrefused =>
      rcases hrefused with hno | hdir
      · exact absurd (binding_above hm hc habove hfree) hno
      · exact absurd ((binding_directory_iff hm).mp hdir) hfree

theorem ends_write (hc : m.PrefixClosed) (content : Text) :
    h.Ends d m (¬m.IsFile (Path.segments path)) (m.bindFile (Path.segments path) content)
      (fun _ => True) ((h.write path content).outcome d) := by
  by_cases hfile : m.IsFile (Path.segments path)
  · obtain ⟨text, htext⟩ := hfile
    have hopen : m (Path.segments path) ≠ some .directory := by simp [htext]
    have hfound := existingFile_of_file hf hp hm htext
    obtain ⟨d', ho, hbecomes⟩ := outcome_writeText hf hm hp hc (hc.above_file htext) hopen content
    have hwrite : (h.write path content).outcome d = (.ok (h.root ++ Path.segments path), d') := by
      simp only [write, outcome_bind, outcome_get, hfound, outcome_liftM_except, ho]
      rfl
    rw [hwrite]
    exact .done (not_not_intro ⟨text, htext⟩) trivial hbecomes
  · obtain ⟨f, hfail⟩ := existingFile_of_not_file hf hp hm hfile
    have ho : (h.write path content).outcome d = (.error f, d) := by
      simp [write, outcome_bind, hfail]
    rw [ho]
    exact .refused hfile (.refl hf hm)

theorem ends_deleteFile (hc : m.PrefixClosed) :
    h.Ends d m (¬m.IsFile (Path.segments path)) (m.unbind (Path.segments path))
      (fun _ => True) ((h.deleteFile path).outcome d) := by
  by_cases hfile : m.IsFile (Path.segments path)
  · obtain ⟨text, htext⟩ := hfile
    have hne : Path.segments path ≠ [] := by
      intro hnil
      rw [hnil, hc.root] at htext
      cases htext
    have hfound := existingFile_of_file hf hp hm htext
    have ho : (h.deleteFile path).outcome d
        = (.ok (), d.erase (h.root ++ Path.segments path)) := by
      simp only [deleteFile, outcome_bind, outcome_get, hfound, outcome_liftM_except]
      rfl
    rw [ho, ← hc.unbindBelow_file htext]
    exact .done (not_not_intro ⟨text, htext⟩) trivial (becomes_erase hf hm hne (hc.above_file htext))
  · obtain ⟨f, hfail⟩ := existingFile_of_not_file hf hp hm hfile
    have ho : (h.deleteFile path).outcome d = (.error f, d) := by
      simp [deleteFile, outcome_bind, hfail]
    rw [ho]
    exact .refused hfile (.refl hf hm)

theorem ends_deleteDirectory (hc : m.PrefixClosed) :
    h.Ends d m (Path.segments path = [] ∨ m (Path.segments path) ≠ some .directory)
      (m.unbindBelow (Path.segments path)) (fun _ => True) ((h.deleteDirectory path).outcome d) := by
  by_cases hne : Path.segments path = []
  · have ho : (h.deleteDirectory path).outcome d = (.error .rootRemoval, d) := by
      simp [deleteDirectory, hne]
    rw [ho]
    exact .refused (.inl hne) (.refl hf hm)
  · by_cases hdir : m (Path.segments path) = some .directory
    · obtain ⟨inside, -, hfound⟩ := existingDirectory_of_directory hf hp hm hdir
      have ho : (h.deleteDirectory path).outcome d
          = (.ok (), d.erase (h.root ++ Path.segments path)) := by
        simp only [deleteDirectory, outcome_bind, if_neg hne, outcome_get, hfound,
          outcome_liftM_except]
        rfl
      rw [ho]
      refine .done (not_or.mpr ⟨hne, not_not_intro hdir⟩) trivial (becomes_erase hf hm hne ?_)
      exact hc.above_bound (by simp [hdir])
    · obtain ⟨f, hfail⟩ := existingDirectory_of_not_directory hf hp hm hdir
      have ho : (h.deleteDirectory path).outcome d = (.error f, d) := by
        simp [deleteDirectory, outcome_bind, hne, hfail]
      rw [ho]
      exact .refused (.inr hdir) (.refl hf hm)

omit hf hp in
theorem clear_iff (hc : m.PrefixClosed) {names : List Text} :
    d.tree.Clear (h.root ++ names) ↔ ¬m.Blocked names := by
  have hroot : d.tree.binding? h.root = some .directory := by
    simpa [hc.root, Binding.map] using hm []
  constructor
  · rintro hclear ⟨p, hpre, text, hfile⟩
    refine hclear (h.root ++ p) (Text.encode text) ((List.prefix_append_right_inj _).mpr hpre) ?_
    rw [hm, hfile]
    rfl
  · intro hfree q content hq hfile
    rcases List.prefix_or_prefix_of_prefix hq (List.prefix_append _ _) with hroot' | ⟨p, rfl⟩
    · rw [Folder.directory_above hroot hroot'] at hfile
      cases hfile
    · rw [hm] at hfile
      obtain ⟨b, hb, hmap⟩ := Option.map_eq_some_iff.mp hfile
      cases b with
      | directory => cases hmap
      | file text => exact hfree ⟨p, (List.prefix_append_right_inj _).mp hq, text, hb⟩

omit hf hp in
theorem becomes_makeDirectories {names : List Text} {tree : Folder Bytes} (hc : m.PrefixClosed)
    (hfree : ¬m.Blocked names) (hdistinct : tree.Distinct)
    (hbindings : ∀ q, tree.binding? q
      = if q <+: h.root ++ names then some .directory else d.tree.binding? q) :
    h.Becomes d { d with tree } (m.makeDirectories names) := by
  have hroot : d.tree.binding? h.root = some .directory := by
    simpa [hc.root, Binding.map] using hm []
  refine ⟨rfl, hdistinct, fun q => ?_, fun p hp => ?_⟩
  · rw [hbindings, PathMap.makeDirectories_of_not_blocked hfree, hm]
    simp only [List.prefix_append_right_inj]
    split <;> rfl
  · rw [hbindings]
    split
    · rename_i hpre
      rcases List.prefix_or_prefix_of_prefix hpre (List.prefix_append _ _) with habove | hbelow
      · exact (Folder.directory_above hroot habove).symm
      · exact absurd hbelow hp
    · rfl

theorem ends_createDirectory (hc : m.PrefixClosed) :
    h.Ends d m (Path.segments path = [] ∨ m.Blocked (Path.segments path))
      (m.makeDirectories (Path.segments path)) (· = Memory.entry (Path.segments path) true)
      ((h.createDirectory path).outcome d) := by
  by_cases hne : Path.segments path = []
  · have ho : (h.createDirectory path).outcome d = (.error .emptyDirectoryPath, d) := by
      simp [createDirectory, hne]
    rw [ho]
    exact .refused (.inl hne) (.refl hf hm)
  · have hensured := Disk.ensured hf.unlimited hf.distinct (plain_place hf hp)
    generalize hmade : (Disk.ensureDirectory (.ofSegments (h.root ++ Path.segments path))).outcome d
      = out at hensured
    cases hensured with
    | @ensured tree hclear hdistinct hbindings =>
        have hfree := (clear_iff hm hc).mp hclear
        have hentry : (⟨(h.root ++ Path.segments path).getLastD [], Path.join [path], true⟩ : StoreEntry)
            = Memory.entry (Path.segments path) true := by
          rw [Memory.entry, Path.join, List.flatMap_singleton, List.getLastD_eq_getLast?,
            List.getLastD_eq_getLast?, List.getLast?_append_of_ne_nil _ hne]
        have ho : (h.createDirectory path).outcome d
            = (.ok ⟨(h.root ++ Path.segments path).getLastD [], Path.join [path], true⟩,
              { d with tree }) := by
          simp only [createDirectory, outcome_bind, outcome_tryCatch, if_neg hne, outcome_pure,
            target_eq hf hp, outcome_liftM_except, hmade]
        rw [ho]
        exact .done (not_or.mpr ⟨hne, hfree⟩) hentry (becomes_makeDirectories hm hc hfree hdistinct hbindings)
    | @blocked f hblocked =>
        have ho : ∃ g, (h.createDirectory path).outcome d = (.error g, d) := by
          simp only [createDirectory, outcome_bind, outcome_tryCatch, if_neg hne, outcome_pure,
            target_eq hf hp, outcome_liftM_except, hmade]
          cases f with
          | disk e _ => cases e <;> exact ⟨_, rfl⟩
          | _ => exact ⟨_, rfl⟩
        obtain ⟨g, ho⟩ := ho
        rw [ho]
        refine .refused (.inr ?_) (.refl hf hm)
        exact Classical.not_not.mp fun hfree => hblocked ((clear_iff hm hc).mpr hfree)

omit hf hp in
theorem Mirrors.prefixClosed (hroot : m [] = some .directory) : m.PrefixClosed where
  root := hroot
  above p q hq hbound := by
    rw [← binding_directory_iff hm]
    refine Folder.binding?_above (q := q) hq ?_
    rw [List.append_assoc, hm]
    simpa using hbound

/-- The first half of creating a file: the missing directories above it are made. -/
def makeAbove (h : Host) (path : Text) : Action Disk Unit := do
  if (Path.parentAndName path).1 ≠ [] then
    let _ ← h.createDirectory (Path.parentAndName path).1

/-- The second half of creating a file: it is put into the directory above it. -/
def putFile (h : Host) (path content : Text) : Action Disk StoreEntry := do
  let place ← h.target path
  if ← (← get).isDirectory (.ofSegments place) then throw (.isADirectory (Path.join [path]))
  Disk.writeText h.encoding (.ofSegments place) content
  return ⟨Path.name path, Path.join [path], false⟩

omit hf hp hm in
theorem createFile_eq (hne : Path.segments path ≠ []) (content : Text) :
    h.createFile path content = h.makeAbove path >>= fun _ => h.putFile path content := by
  have hname : (Path.parentAndName path).2 ≠ [] := by
    rw [Path.parentAndName, List.getLastD_eq_getLast?, List.getLast?_eq_getLast_of_ne_nil hne]
    exact (Path.isSegment_of_mem_segments (List.getLast_mem hne)).1
  simp only [createFile, makeAbove, if_neg hname]
  split
  · rw [bind_assoc]
    rfl
  · rfl

theorem ends_makeAbove (hc : m.PrefixClosed) :
    h.Ends d m (m.Blocked (Path.segments path).dropLast)
      (m.makeDirectories (Path.segments path).dropLast) (fun _ => True)
      ((h.makeAbove path).outcome d) := by
  by_cases hne : (Path.parentAndName path).1 = []
  · have habove : (Path.segments path).dropLast = [] := by
      rw [← Path.segments_parent, hne, Path.segments_nil]
    rw [makeAbove, if_neg (not_not_intro hne), habove, hc.makeDirectories_of_directory hc.root]
    refine .done ?_ trivial (.refl hf hm)
    rintro ⟨p, hpre, hfile⟩
    exact hfile.not_directory (by rw [List.prefix_nil.mp hpre, hc.root])
  · have hsegments := Path.segments_parent path
    have hplain : Disk.Plain (Path.segments (Path.parentAndName path).1) := by
      rw [hsegments]
      exact hp.subset (List.dropLast_subset _)
    have hmade := ends_createDirectory hf hplain hm hc
    rw [makeAbove, if_pos hne, outcome_bind]
    rw [hsegments] at hmade
    generalize (h.createDirectory (Path.parentAndName path).1).outcome d = out at hmade
    cases hmade with
    | done hfree _ hbecomes => exact .done (fun hb => hfree (.inr hb)) trivial hbecomes
    | refused hrefused hbecomes =>
        refine .refused (hrefused.resolve_left fun hnil => hne ?_) hbecomes
        rw [Path.parentAndName, hnil]
        rfl

theorem ends_putFile (hc : m.PrefixClosed)
    (habove : m (Path.segments path).dropLast = some .directory) (content : Text) :
    h.Ends d m (m (Path.segments path) = some .directory)
      (m.bindFile (Path.segments path) content) (· = Memory.entry (Path.segments path) false)
      ((h.putFile path content).outcome d) := by
  have hdirectory := Disk.isDirectory_ofSegments hf.unlimited (plain_place hf hp)
  by_cases hdir : m (Path.segments path) = some .directory
  · have ho : (h.putFile path content).outcome d
        = (.error (.isADirectory (Path.join [path])), d) := by
      simp [putFile, outcome_bind, target_eq hf hp, hdirectory, binding_directory_iff hm, hdir]
    rw [ho]
    exact .refused hdir (.refl hf hm)
  · obtain ⟨d', hwrite, hbecomes⟩ := outcome_writeText hf hm hp hc habove hdir content
    have hentry : (⟨Path.name path, Path.join [path], false⟩ : StoreEntry)
        = Memory.entry (Path.segments path) false := by
      rw [Memory.entry, Path.join, List.flatMap_singleton]
      rfl
    have ho : (h.putFile path content).outcome d
        = (.ok ⟨Path.name path, Path.join [path], false⟩, d') := by
      simp [putFile, outcome_bind, target_eq hf hp, hdirectory, binding_directory_iff hm, hdir,
        hwrite, Except.map]
    rw [ho]
    exact .done hdir hentry hbecomes

theorem ends_createFile (hc : m.PrefixClosed) (content : Text) :
    h.Ends d m (m.Closed (Path.segments path)) (m.create (Path.segments path) content)
      (· = Memory.entry (Path.segments path) false) ((h.createFile path content).outcome d) := by
  by_cases hne : Path.segments path = []
  · have ho : (h.createFile path content).outcome d = (.error (.invalidFilePath path), d) := by
      simp [createFile, Path.parentAndName, hne]
    rw [ho]
    exact .refused (.inl (by rw [hne, hc.root])) (.refl hf hm)
  · have hmade := ends_makeAbove hf hp hm hc
    rw [createFile_eq hne, outcome_bind]
    generalize (h.makeAbove path).outcome d = out at hmade
    cases hmade with
    | refused hblocked hbecomes => exact .refused (.inr hblocked) hbecomes
    | @done _ d' hfree _ hbecomes =>
        have hmirrors := hbecomes.mirrors
        have hroot : m.makeDirectories (Path.segments path).dropLast [] = some .directory := by
          simp [PathMap.makeDirectories, hc.root]
        have hput := ends_putFile (hf.becomes hbecomes) hp hmirrors (hmirrors.prefixClosed hroot)
          (PathMap.makeDirectories_self hfree) content
        rw [PathMap.makeDirectories_dropLast hne] at hput
        dsimp only
        generalize (h.putFile path content).outcome d' = out at hput
        cases hput with
        | done hopen hentry hput =>
            exact .done (not_or.mpr ⟨hopen, hfree⟩) hentry (hbecomes.trans hput)
        | refused hdir hput =>
            -- What is above a directory was there before, so no directory has been made for it.
            have habove : m (Path.segments path).dropLast = some .directory :=
              hc.above_bound (by simp [hdir])
            rw [hc.makeDirectories_of_directory habove] at hput
            exact .refused (.inl hdir) (hbecomes.trans hput)

omit hp in
theorem ends_clear (hc : m.PrefixClosed) :
    h.Ends d m False PathMap.bare (fun _ => True) (h.clear.outcome d) := by
  have hroot : d.tree.binding? h.root = some .directory := by
    simpa [hc.root, Binding.map] using hm []
  obtain ⟨inside, hn⟩ := Folder.binding?_eq_directory.mp hroot
  have ho : h.clear.outcome d = (.ok (), { d with tree := d.tree.hollow h.root }) := by
    simp only [clear, outcome_bind, outcome_get, Disk.node_of_found hf.unlimited hf.root hn]
    rfl
  have hhollow := Folder.binding?_hollow hf.distinct hroot
  rw [ho]
  refine .done id trivial ⟨rfl, Folder.tidy_hollow hf.distinct fun _ _ => trivial, fun q => ?_, fun p hp => ?_⟩
  · rw [hhollow, if_pos (List.prefix_append _ _)]
    by_cases hq : q = [] <;> simp [hq, PathMap.bare, Binding.map]
  · rw [hhollow, if_neg hp]

end Host

end PipeShell
