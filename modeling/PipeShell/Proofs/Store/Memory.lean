import PipeShell.Proofs.Folder.Alter
import PipeShell.Proofs.Path.Segments
import PipeShell.Proofs.Store.Action
import PipeShell.Proofs.Store.PathMap
import PipeShell.Store.Memory

/-!
# The store in memory as a map

What the operations of a store in memory do to the map from paths to bindings, and when they fail.
The store stays tidy: its names are segments, and no two entries of a directory share one.
-/

namespace PipeShell

namespace Failure

/-- No such entry exists, or it does not allow the operation. -/
def IsRefusal (f : Failure) : Prop :=
  f.kind = .nodeNotFound ∨ f.kind = .invalidOperation

theorem not_isRefusal_quotaExceeded (projected quota : Int) :
    ¬(quotaExceeded projected quota).IsRefusal := by
  rintro (h | h) <;> cases h

end Failure

namespace Memory

variable {admits : Text → Prop}

/-- What the store binds paths to. -/
def pathMap (m : Memory) : PathMap :=
  fun path => m.tree.binding? path

/-- Every name is admitted, and no two entries of a directory share one. -/
def Tidy (admits : Text → Prop) (m : Memory) : Prop :=
  m.tree.Tidy admits

/-- The map of a store is closed under prefixes, whatever the store holds. -/
theorem prefixClosed_pathMap (m : Memory) : m.pathMap.PrefixClosed where
  root := rfl
  above _ _ hq h := Folder.binding?_above hq h

/-! ## Questions -/

theorem node_eq_ok {m : Memory} {path : Text} {n : Node Text} :
    m.node path = .ok n ↔ m.tree.node? (Path.segments path) = some n := by
  rw [node, ← Folder.find_eq_node]
  cases m.tree.find (Path.segments path) <;> simp

theorem node_eq_error {m : Memory} {path : Text} {f : Failure} (h : m.node path = .error f) :
    f.IsRefusal ∧ m.pathMap (Path.segments path) = none := by
  have hn : m.tree.node? (Path.segments path) = none := by
    cases hf : m.tree.node? (Path.segments path) with
    | none => rfl
    | some n => simp [node_eq_ok.mpr hf] at h
  refine ⟨?_, Folder.binding?_eq_none.mpr hn⟩
  rw [node] at h
  split at h
  · cases h
  · cases h
    exact Or.inl rfl
  · cases h
    exact Or.inr rfl

theorem read_eq_ok {m : Memory} {path text : Text} :
    m.read path = .ok text ↔ m.pathMap (Path.segments path) = some (.file text) := by
  rw [pathMap, Folder.binding?_eq_file, ← node_eq_ok, read]
  cases m.node path with
  | error f => simp
  | ok n => cases n <;> simp

theorem read_eq_error {m : Memory} {path : Text} {f : Failure} (h : m.read path = .error f) :
    f.IsRefusal := by
  rw [read] at h
  cases hn : m.node path with
  | error g =>
      obtain rfl : g = f := by simpa [hn] using h
      exact (node_eq_error hn).1
  | ok n =>
      cases n with
      | file content => simp [hn] at h
      | folder inside =>
          obtain rfl : Failure.isADirectory (Path.join [path]) = f := by
            simpa [hn] using h
          exact Or.inr rfl

theorem exists_read_eq_error {m : Memory} {path : Text} :
    (∃ f, m.read path = .error f) ↔ ¬m.pathMap.IsFile (Path.segments path) := by
  unfold PathMap.IsFile
  simp only [← read_eq_ok]
  cases m.read path <;> simp

theorem toOption_read_of_not_file {m : Memory} {path : Text}
    (h : ¬m.pathMap.IsFile (Path.segments path)) : (m.read path).toOption = none := by
  obtain ⟨f, hf⟩ := exists_read_eq_error.mpr h
  rw [hf]
  rfl

theorem directory_eq_ok {m : Memory} {path : Text} {inside : Folder Text} :
    m.directory path = .ok inside ↔ m.tree.node? (Path.segments path) = some (.folder inside) := by
  rw [← node_eq_ok, directory]
  cases m.node path with
  | error f => simp
  | ok n => cases n <;> simp

theorem directory_eq_error {m : Memory} {path : Text} {f : Failure}
    (h : m.directory path = .error f) :
    f.IsRefusal ∧ m.pathMap (Path.segments path) ≠ some .directory := by
  rw [directory] at h
  cases hn : m.node path with
  | error g =>
      obtain rfl : g = f := by simpa [hn] using h
      obtain ⟨hr, hp⟩ := node_eq_error hn
      exact ⟨hr, by simp [hp]⟩
  | ok n =>
      cases n with
      | folder inside => simp [hn] at h
      | file content =>
          obtain rfl : Failure.notADirectory (Path.join [path]) = f := by
            simpa [hn] using h
          rw [node_eq_ok] at hn
          exact ⟨Or.inr rfl, by simp [pathMap, Folder.binding?, hn]⟩

theorem holds_iff {m : Memory} {path : Text} :
    m.holds path = true ↔ m.pathMap (Path.segments path) ≠ none := by
  simp [holds, pathMap, Folder.binding?, Option.isSome_iff_ne_none]

theorem isDirectory_iff {m : Memory} {path : Text} :
    m.isDirectory path = true ↔ m.pathMap (Path.segments path) = some .directory := by
  rw [pathMap, Folder.binding?_eq_directory, isDirectory]
  cases m.tree.node? (Path.segments path) with
  | none => simp
  | some n => cases n <;> simp

theorem exists_read_eq_ok {m : Memory} {path : Text} (hh : m.holds path = true)
    (hd : ¬m.isDirectory path = true) : ∃ text, m.read path = .ok text := by
  rw [holds_iff] at hh
  rw [isDirectory_iff] at hd
  cases hb : m.pathMap (Path.segments path) with
  | none => exact absurd hb hh
  | some b =>
      cases b with
      | directory => exact absurd hb hd
      | file text => exact ⟨text, read_eq_ok.mpr hb⟩

/-! ## How calls end -/

/-- How a call on a store in memory ends: with a changed map unless it is refused; refused; or for
want of room. A call that fails keeps every binding. -/
inductive Ends {α : Type} (m : Memory) (refused : Prop) (update : PathMap) (answer : α → Prop) :
    Except Failure α → Memory → Prop
  | done {a m'} : ¬refused → m'.pathMap = update → answer a → Ends m refused update answer (.ok a) m'
  | refused {f m'} : refused → f.IsRefusal → m.pathMap.Within m'.pathMap →
      Ends m refused update answer (.error f) m'
  | full {projected m'} : ¬refused → m.quota < projected → m.pathMap.Within m'.pathMap →
      Ends m refused update answer (.error (.quotaExceeded projected m.quota)) m'

theorem Ends.congr {α : Type} {m m' : Memory} {refused refused' : Prop} {update update' : PathMap}
    {answer : α → Prop} {r : Except Failure α} (h : m.Ends refused update answer r m')
    (hr : refused' ↔ refused) (hu : update' = update) : m.Ends refused' update' answer r m' := by
  rw [hu, propext hr]
  exact h

theorem checkQuota_eq_error {m : Memory} {replaced : Nat} {content : Text} {f : Failure}
    (h : m.checkQuota replaced content = .error f) :
    ∃ projected, f = .quotaExceeded projected m.quota ∧ m.quota < projected := by
  simp only [checkQuota] at h
  split at h
  · rename_i hq
    cases h
    exact ⟨_, rfl, hq⟩
  · cases h

/-! ## Files that exist -/

theorem above_file {m : Memory} {path : List Text} (h : m.pathMap.IsFile path) :
    path ≠ [] ∧ m.pathMap path.dropLast = some .directory := by
  have hne : path ≠ [] := by
    rintro rfl
    exact h.not_directory m.prefixClosed_pathMap.root
  obtain ⟨text, h⟩ := h
  exact ⟨hne, m.prefixClosed_pathMap.above_file h⟩

theorem pathMap_write {m : Memory} (hm : m.Tidy admits) {path : List Text}
    (hd : m.pathMap path.dropLast = some .directory) (hf : m.pathMap path ≠ some .directory)
    (content : Text) :
    pathMap { m with tree := m.tree.write path content } = m.pathMap.bindFile path content := by
  have hne : path ≠ [] := by
    rintro rfl
    exact hf rfl
  funext q
  exact Folder.binding?_write hm hne hd hf content q

/-- Replacing a content: refused unless there is a file. -/
theorem write_ends {m : Memory} (hm : m.Tidy admits) {path : Text}
    (hp : ∀ s ∈ Path.segments path, admits s) (content : Text) :
    match m.write path content with
    | .ok m' => m.pathMap.IsFile (Path.segments path)
        ∧ m'.pathMap = m.pathMap.bindFile (Path.segments path) content ∧ m'.Tidy admits
    | .error f => (¬m.pathMap.IsFile (Path.segments path) ∧ f.IsRefusal)
        ∨ (m.pathMap.IsFile (Path.segments path)
          ∧ ∃ projected, f = .quotaExceeded projected m.quota ∧ m.quota < projected) := by
  rw [write]
  cases hr : m.read path with
  | error f => exact Or.inl ⟨exists_read_eq_error.mp ⟨f, hr⟩, read_eq_error hr⟩
  | ok former =>
      have hfile : m.pathMap.IsFile (Path.segments path) := ⟨former, read_eq_ok.mp hr⟩
      simp only [Attempt.ok_bind]
      cases hq : m.checkQuota (Text.byteLength former) content with
      | error f => exact Or.inr ⟨hfile, checkQuota_eq_error hq⟩
      | ok u =>
          refine ⟨hfile, pathMap_write hm (above_file hfile).2 hfile.not_directory content, ?_⟩
          exact Folder.tidy_write hm hp content

theorem deleteFile_ends {m : Memory} (hm : m.Tidy admits) {path : Text}
    (hp : ∀ s ∈ Path.segments path, admits s) :
    match m.deleteFile path with
    | .ok m' => m.pathMap.IsFile (Path.segments path)
        ∧ m'.pathMap = m.pathMap.unbind (Path.segments path) ∧ m'.Tidy admits
    | .error f => ¬m.pathMap.IsFile (Path.segments path) ∧ f.IsRefusal := by
  rw [deleteFile]
  cases hr : m.read path with
  | error f => exact ⟨exists_read_eq_error.mp ⟨f, hr⟩, read_eq_error hr⟩
  | ok text =>
      have hfile : m.pathMap.IsFile (Path.segments path) := ⟨text, read_eq_ok.mp hr⟩
      obtain ⟨hne, hd⟩ := above_file hfile
      refine ⟨hfile, ?_, Folder.tidy_erase hm hp⟩
      funext q
      refine (Folder.binding?_erase hm hne hd q).trans ?_
      -- Nothing is bound below a file, so all that is erased is the file.
      by_cases hpre : Path.segments path <+: q
      · obtain ⟨below, rfl⟩ := hpre
        by_cases hb : below = []
        · simp [hb, PathMap.unbind]
        · have hnone := Folder.binding?_below hb hfile.not_directory
          simp [hb, PathMap.unbind, pathMap, hnone]
      · have hq : q ≠ Path.segments path := by
          rintro rfl
          exact hpre List.prefix_rfl
        simp [hpre, hq, PathMap.unbind, pathMap]

/-- Deleting a directory: refused unless there is one, and for the root. -/
theorem deleteDirectory_ends {m : Memory} (hm : m.Tidy admits) {path : Text}
    (hp : ∀ s ∈ Path.segments path, admits s) :
    match m.deleteDirectory path with
    | .ok m' => Path.segments path ≠ [] ∧ m.pathMap (Path.segments path) = some .directory
        ∧ m'.pathMap = m.pathMap.unbindBelow (Path.segments path) ∧ m'.Tidy admits
    | .error f => (Path.segments path = []
        ∨ m.pathMap (Path.segments path) ≠ some .directory) ∧ f.IsRefusal := by
  rw [deleteDirectory]
  by_cases hne : Path.segments path = []
  · simp only [hne, if_true]
    exact ⟨Or.inl trivial, Or.inr rfl⟩
  · simp only [hne, if_false]
    cases hr : m.directory path with
    | error f =>
        obtain ⟨hf, hd⟩ := directory_eq_error hr
        exact ⟨Or.inr hd, hf⟩
    | ok inside =>
        have hdir : m.pathMap (Path.segments path) = some .directory :=
          Folder.binding?_eq_directory.mpr ⟨inside, directory_eq_ok.mp hr⟩
        refine ⟨by simpa using hne, hdir, ?_, Folder.tidy_erase hm hp⟩
        funext q
        exact Folder.binding?_erase hm hne (m.prefixClosed_pathMap.above_bound (by simp [hdir])) q

/-- What is deleted is an entry below the root, and only that is erased. -/
theorem erased_of_delete {m m' : Memory} {path : Text}
    (h : m.deleteFile path = .ok m' ∨ m.deleteDirectory path = .ok m') :
    ∃ above name, Path.segments path = above ++ [name] ∧ m.tree.node? (above ++ [name]) ≠ none
      ∧ m' = { m with tree := m.tree.erase (above ++ [name]) } := by
  obtain ⟨hne, hheld, rfl⟩ : Path.segments path ≠ [] ∧ m.tree.node? (Path.segments path) ≠ none
      ∧ m' = { m with tree := m.tree.erase (Path.segments path) } := by
    rcases h with h | h
    · rw [deleteFile] at h
      cases hread : m.read path with
      | error f => simp [hread] at h
      | ok text =>
          have hfile := read_eq_ok.mp hread
          refine ⟨(above_file ⟨text, hfile⟩).1, ?_, by simpa [hread, eq_comm] using h⟩
          simp [Folder.binding?_eq_file.mp hfile]
    · rw [deleteDirectory] at h
      by_cases hne : Path.segments path = []
      · simp [hne] at h
      · cases hdir : m.directory path with
        | error f => simp [hne, hdir] at h
        | ok inside =>
            exact ⟨hne, by simp [directory_eq_ok.mp hdir], by simpa [hne, hdir, eq_comm] using h⟩
  have hlast := List.dropLast_concat_getLast hne
  exact ⟨_, _, hlast.symm, by rwa [hlast], by rw [hlast]⟩

/-! ## Files and directories that may be missing -/

theorem pathMap_ensure {m : Memory} (hm : m.Tidy admits) {path : List Text}
    (h : ¬m.pathMap.Blocked path) :
    pathMap { m with tree := m.tree.ensure path } = m.pathMap.makeDirectories path := by
  have hfree : ∀ p content, p <+: path → m.tree.binding? p ≠ some (.file content) :=
    fun p content hp hb => h ⟨p, hp, content, hb⟩
  funext q
  rw [PathMap.makeDirectories_of_not_blocked h]
  exact Folder.binding?_ensure hm hfree q

theorem eq_of_ensureDirectory_eq_ok {m m' : Memory} {path : List Text}
    (h : m.ensureDirectory path = .ok m') : m' = { m with tree := m.tree.ensure path } := by
  rw [ensureDirectory] at h
  split at h <;> cases h <;> rfl

/-- Making directories: refused where a file is in the way. -/
theorem ensureDirectory_ends {m : Memory} (hm : m.Tidy admits) {path : List Text}
    (hp : ∀ s ∈ path, admits s) :
    match m.ensureDirectory path with
    | .ok m' => ¬m.pathMap.Blocked path ∧ m'.pathMap = m.pathMap.makeDirectories path
        ∧ m'.Tidy admits ∧ m'.quota = m.quota
    | .error f => m.pathMap.Blocked path ∧ f.IsRefusal := by
  have hmade : ¬m.pathMap.Blocked path →
      ¬m.pathMap.Blocked path
        ∧ pathMap { m with tree := m.tree.ensure path } = m.pathMap.makeDirectories path
        ∧ Tidy admits { m with tree := m.tree.ensure path } ∧ m.quota = m.quota :=
    fun h => ⟨h, pathMap_ensure hm h, Folder.tidy_ensure hm hp, rfl⟩
  rw [ensureDirectory]
  cases hf : m.tree.find path with
  | missing here =>
      refine hmade ?_
      rintro ⟨p, hpre, text, hfile⟩
      exact (Folder.find_missing hf).2.2 p text hpre hfile
  | blocked here =>
      obtain ⟨hpre, _, hfile⟩ := Folder.find_blocked hf
      exact ⟨⟨here, hpre, hfile⟩, Or.inr rfl⟩
  | node n =>
      rw [Folder.find_eq_node] at hf
      cases n with
      | file content =>
          exact ⟨⟨path, List.prefix_rfl, content, Folder.binding?_eq_file.mpr hf⟩, Or.inr rfl⟩
      | folder inside =>
          refine hmade ?_
          rintro ⟨p, ⟨below, rfl⟩, text, hfile⟩
          have hdir : m.pathMap (p ++ below) = some .directory :=
            Folder.binding?_eq_directory.mpr ⟨inside, hf⟩
          by_cases hb : below = []
          · simp [hb, hfile] at hdir
          · have := m.prefixClosed_pathMap.above p below hb (by simp [hdir])
            simp [hfile] at this

/-- Creating a directory: refused for the root and where a file is in the way. -/
theorem createDirectory_ends {m : Memory} (hm : m.Tidy admits) {path : Text}
    (hp : ∀ s ∈ Path.segments path, admits s) :
    match m.createDirectory path with
    | .ok (e, m') => e = entry (Path.segments path) true
        ∧ ¬(Path.segments path = [] ∨ m.pathMap.Blocked (Path.segments path))
        ∧ m'.pathMap = m.pathMap.makeDirectories (Path.segments path) ∧ m'.Tidy admits
    | .error f => (Path.segments path = [] ∨ m.pathMap.Blocked (Path.segments path))
        ∧ f.IsRefusal := by
  have he := ensureDirectory_ends hm hp
  rw [createDirectory]
  by_cases hne : Path.segments path = []
  · simp only [hne, if_true]
    exact ⟨Or.inl trivial, Or.inr rfl⟩
  · simp only [hne, if_false]
    cases hr : m.ensureDirectory (Path.segments path) with
    | error f =>
        rw [hr] at he
        exact ⟨Or.inr he.1, he.2⟩
    | ok m' =>
        rw [hr] at he
        exact ⟨rfl, by simpa using he.1, he.2.1, he.2.2.1⟩

/-- Puts a file in place of as many bytes, if there is room for it. -/
def put (m : Memory) (path : List Text) (replaced : Nat) (content : Text) :
    Except Failure StoreEntry × Memory :=
  match m.checkQuota replaced content with
  | .error f => (.error f, m)
  | .ok () => (.ok (entry path false), { m with tree := m.tree.write path content })

/-- A file is put into the directory that was made for it, unless it is a directory itself. -/
theorem createFile_eq {m made : Memory} {path content : Text} (hne : Path.segments path ≠ [])
    (h : m.ensureDirectory (Path.segments path).dropLast = .ok made) :
    m.createFile path content
      = match made.tree.node? (Path.segments path) with
        | some (.folder _) => (.error (.isADirectory (Path.ofSegments (Path.segments path))), made)
        | some (.file text) => made.put (Path.segments path) (Text.byteLength text) content
        | none => made.put (Path.segments path) 0 content := by
  simp only [createFile, if_neg hne, h]
  cases made.tree.node? (Path.segments path) with
  | none => rfl
  | some n => cases n <;> rfl

/-- Where the directory is there and the name is free, creating a file writes it. -/
theorem createFile_of_free {m : Memory} {path content name : Text} {above : List Text}
    {g : Folder Text} (hpath : Path.segments path = above ++ [name])
    (habove : m.tree.node? above = some (.folder g)) (hfree : g.child? name = none) :
    m.createFile path content = m.put (above ++ [name]) 0 content := by
  have hmade : m.ensureDirectory (Path.segments path).dropLast = .ok m := by
    rw [hpath, List.dropLast_concat, ensureDirectory, Folder.find_eq_node.mpr habove]
    change Except.ok _ = _
    rw [Folder.ensure_of_directory (Folder.binding?_eq_directory.mpr ⟨g, habove⟩)]
  have hnone : m.tree.node? (above ++ [name]) = none := by
    simp [Folder.node?_append, habove, Node.at?, Folder.node?_singleton, hfree]
  rw [createFile_eq (by simp [hpath]) hmade, hpath, hnone]

theorem put_ends {m : Memory} (hm : m.Tidy admits) {path : List Text}
    (hp : ∀ s ∈ path, admits s)
    (hd : m.pathMap path.dropLast = some .directory) (hf : m.pathMap path ≠ some .directory)
    (replaced : Nat) (content : Text) :
    Ends m False (m.pathMap.bindFile path content) (· = entry path false)
        (m.put path replaced content).1 (m.put path replaced content).2
      ∧ (m.put path replaced content).2.Tidy admits := by
  unfold put
  cases hq : m.checkQuota replaced content with
  | error f =>
      obtain ⟨projected, rfl, hlt⟩ := checkQuota_eq_error hq
      exact ⟨.full id hlt (PathMap.Within.refl _), hm⟩
  | ok u => exact ⟨.done id (pathMap_write hm hd hf content) rfl, Folder.tidy_write hm hp content⟩

/-- Once the directories above it are made, a path that is no directory ends as putting a file there
does. -/
theorem put_made_ends {m made : Memory} (htidy : made.Tidy admits) {path : List Text}
    (hp : ∀ s ∈ path, admits s) (hne : path ≠ []) (hfree : ¬m.pathMap.Blocked path.dropLast)
    (hmap : made.pathMap = m.pathMap.makeDirectories path.dropLast) (hquota : made.quota = m.quota)
    (hopen : made.pathMap path ≠ some .directory) (replaced : Nat) (content : Text) :
    Ends m (m.pathMap.Closed path) (m.pathMap.create path content) (· = entry path false)
        (made.put path replaced content).1 (made.put path replaced content).2
      ∧ (made.put path replaced content).2.Tidy admits := by
  have hself : made.pathMap path = m.pathMap path := by
    rw [hmap, PathMap.makeDirectories_dropLast hne]
  have hdir : made.pathMap path.dropLast = some .directory := by
    rw [hmap, PathMap.makeDirectories_self hfree]
  have hclosed : ¬m.pathMap.Closed path := by
    rintro (h | h)
    · exact hopen (hself.trans h)
    · exact hfree h
  have hwithin : m.pathMap.Within made.pathMap := hmap ▸ PathMap.within_makeDirectories _ _
  obtain ⟨hends, ht⟩ := put_ends htidy hp hdir hopen replaced content
  refine ⟨?_, ht⟩
  rw [hmap] at hends
  generalize made.put path replaced content = out at hends
  obtain ⟨r, m'⟩ := out
  cases hends with
  | done _ hupdate ha => exact .done hclosed hupdate ha
  | refused h => exact h.elim
  | full _ hlt hw =>
      rw [hquota] at hlt ⊢
      exact .full hclosed hlt (hwithin.trans hw)

/-- Creating a file: refused for a directory and where a file is in the way. The directories above
it stay when there is no room for it. -/
theorem createFile_ends {m : Memory} (hm : m.Tidy admits) {path : Text}
    (hp : ∀ s ∈ Path.segments path, admits s) (content : Text) :
    Ends m (m.pathMap.Closed (Path.segments path))
        (m.pathMap.create (Path.segments path) content)
        (· = entry (Path.segments path) false)
        (m.createFile path content).1 (m.createFile path content).2
      ∧ (m.createFile path content).2.Tidy admits := by
  have habove : ∀ s ∈ (Path.segments path).dropLast, admits s :=
    fun s h => hp s (List.dropLast_subset _ h)
  have he := ensureDirectory_ends hm habove
  by_cases hne : Path.segments path = []
  · have hroot : m.pathMap (Path.segments path) = some .directory := by
      rw [hne]
      exact m.prefixClosed_pathMap.root
    simp only [createFile, if_pos hne]
    exact ⟨.refused (Or.inl hroot) (Or.inr rfl) (PathMap.Within.refl _), hm⟩
  · cases hr : m.ensureDirectory (Path.segments path).dropLast with
    | error f =>
        rw [hr] at he
        simp only [createFile, if_neg hne, hr]
        exact ⟨.refused (Or.inr he.1) he.2 (PathMap.Within.refl _), hm⟩
    | ok made =>
        rw [hr] at he
        obtain ⟨hfree, hmap, htidy, hquota⟩ := he
        have hput := put_made_ends htidy hp hne hfree hmap hquota
        rw [createFile_eq hne hr]
        cases hn : made.tree.node? (Path.segments path) with
        | none =>
            refine hput ?_ 0 content
            simp [pathMap, Folder.binding?, hn]
        | some n =>
            cases n with
            | file text =>
                refine hput ?_ (Text.byteLength text) content
                simp [pathMap, Folder.binding?, hn]
            | folder inside =>
                have hclosed : m.pathMap (Path.segments path) = some .directory := by
                  rw [← PathMap.makeDirectories_dropLast (m := m.pathMap) hne, ← hmap]
                  simp [pathMap, Folder.binding?, hn]
                have hwithin : m.pathMap.Within made.pathMap :=
                  hmap ▸ PathMap.within_makeDirectories _ _
                exact ⟨.refused (Or.inl hclosed) (Or.inr rfl) hwithin, htidy⟩

/-- A path where no file can be created leaves the store as it is. -/
theorem createFile_snd_of_closed {m : Memory} (hm : m.Tidy admits) {path : Text}
    (hp : ∀ s ∈ Path.segments path, admits s) (hclosed : m.pathMap.Closed (Path.segments path))
    (content : Text) : (m.createFile path content).2 = m := by
  by_cases hne : Path.segments path = []
  · simp only [createFile, if_pos hne]
  · have he := ensureDirectory_ends hm fun s h => hp s (List.dropLast_subset _ h)
    cases hr : m.ensureDirectory (Path.segments path).dropLast with
    | error f => simp only [createFile, if_neg hne, hr]
    | ok made =>
        -- The path is a directory, so no directory above it had to be made.
        rw [hr] at he
        have hdir : m.pathMap (Path.segments path) = some .directory := hclosed.resolve_right he.1
        obtain rfl : made = m := by
          rw [eq_of_ensureDirectory_eq_ok hr, Folder.ensure_of_directory]
          exact m.prefixClosed_pathMap.above_bound (by simp [hdir])
        obtain ⟨inside, hn⟩ := Folder.binding?_eq_directory.mp hdir
        rw [createFile_eq hne hr, hn]

theorem clear_tidy (m : Memory) : m.clear.Tidy admits := trivial

theorem pathMap_clear (m : Memory) : m.clear.pathMap = PathMap.bare :=
  funext fun path => Folder.binding?_empty path

end Memory

end PipeShell
