import PipeShell.Proofs.Store.Failed

/-!
# What a change leaves alone

Every operation of a store in memory, whether it succeeds or fails, keeps the files and the
directories outside of those that it is about.
-/

namespace PipeShell

open PipeShell.Path (segments)

namespace PathMap

variable {files directories : List Text → Prop} {m m' m'' : PathMap} {path : List Text}

/-- Other files are the same, with the same texts, and other directories are still there. -/
structure KeptOutside (files directories : List Text → Prop) (m m' : PathMap) : Prop where
  file : ∀ q, ¬files q → ∀ text, m' q = some (.file text) ↔ m q = some (.file text)
  directory : ∀ q, ¬directories q → m q = some .directory → m' q = some .directory

namespace KeptOutside

theorem refl (m : PathMap) : m.KeptOutside files directories m :=
  ⟨fun _ _ _ => Iff.rfl, fun _ _ h => h⟩

theorem trans (h : m.KeptOutside files directories m') (h' : m'.KeptOutside files directories m'') :
    m.KeptOutside files directories m'' where
  file q hq text := (h'.file q hq text).trans (h.file q hq text)
  directory q hq hdir := h'.directory q hq (h.directory q hq hdir)

theorem makeDirectories (path : List Text) (m : PathMap) :
    m.KeptOutside files directories (m.makeDirectories path) where
  file _ _ _ := makeDirectories_eq_file
  directory q _ hdir := within_makeDirectories m path q _ hdir

theorem bindFile (hfile : files path) (hdir : m path ≠ some .directory) (text : Text) :
    m.KeptOutside files directories (m.bindFile path text) where
  file q hq t := by
    have hne : q ≠ path := fun h => hq (h ▸ hfile)
    simp [PathMap.bindFile, hne]
  directory q _ hq := by
    have hne : q ≠ path := fun h => hdir (h ▸ hq)
    simp [PathMap.bindFile, hne, hq]

theorem create (hne : path ≠ []) (hfile : files path) (hdir : m path ≠ some .directory)
    (text : Text) : m.KeptOutside files directories (m.create path text) :=
  (makeDirectories path.dropLast m).trans
    (bindFile hfile (by rwa [makeDirectories_dropLast hne]) text)

theorem unbind (hfile : files path) (hdir : m path ≠ some .directory) :
    m.KeptOutside files directories (m.unbind path) where
  file q hq text := by
    have hne : q ≠ path := fun h => hq (h ▸ hfile)
    simp [PathMap.unbind, hne]
  directory q _ hq := by
    have hne : q ≠ path := fun h => hdir (h ▸ hq)
    simp [PathMap.unbind, hne, hq]

theorem unbindBelow (hfiles : ∀ q, path <+: q → files q) (hdirs : ∀ q, path <+: q → directories q)
    (m : PathMap) : m.KeptOutside files directories (m.unbindBelow path) where
  file q hq text := by
    have hpre : ¬path <+: q := fun h => hq (hfiles q h)
    simp [PathMap.unbindBelow, hpre]
  directory q hq hdir := by
    have hpre : ¬path <+: q := fun h => hq (hdirs q h)
    simp [PathMap.unbindBelow, hpre, hdir]

end KeptOutside

end PathMap

namespace Memory

/-- The store is tidy and has kept what `m` bound outside of some files and directories. -/
structure KeptOutside (files directories : List Text → Prop) (m m' : Memory) : Prop where
  tidy : m'.Tidy Path.IsSegment
  kept : m.pathMap.KeptOutside files directories m'.pathMap

namespace KeptOutside

variable {files directories : List Text → Prop} {m m₁ m₂ : Memory} {path content : Text}

theorem refl (hm : m.Tidy Path.IsSegment) : m.KeptOutside files directories m :=
  ⟨hm, .refl _⟩

variable (h : m.KeptOutside files directories m₁)

include h

theorem change {update : PathMap} (hmap : m₂.pathMap = update) (htidy : m₂.Tidy Path.IsSegment)
    (hkept : m₁.pathMap.KeptOutside files directories update) :
    m.KeptOutside files directories m₂ :=
  ⟨htidy, h.kept.trans (hmap ▸ hkept)⟩

theorem write (hfile : files (segments path)) (hr : m₁.write path content = .ok m₂) :
    m.KeptOutside files directories m₂ := by
  have he := write_ends h.tidy (Path.isSegment_segments path) content
  rw [hr] at he
  obtain ⟨hfound, hmap, htidy⟩ := he
  exact h.change hmap htidy (.bindFile hfile hfound.not_directory content)

/-- A file that does not fit leaves directories behind, which are new. -/
theorem createFile (hfile : files (segments path)) (content : Text) :
    m.KeptOutside files directories (m₁.createFile path content).2 := by
  by_cases hclosed : m₁.pathMap.Closed (segments path)
  · rwa [createFile_snd_of_closed h.tidy (Path.isSegment_segments path) hclosed]
  · rw [createFile_of_open h.tidy hclosed]
    split
    · exact h.change (pathMap_prepared h.tidy hclosed) (prepared_tidy h.tidy)
        (.makeDirectories _ _)
    · refine h.change (pathMap_replacing h.tidy hclosed content) (replacing_tidy h.tidy) ?_
      exact .create (segments_ne_nil_of_open hclosed) hfile (fun hdir => hclosed (.inl hdir)) content

theorem createDirectory {e : StoreEntry} (hr : m₁.createDirectory path = .ok (e, m₂)) :
    m.KeptOutside files directories m₂ := by
  have he := createDirectory_ends h.tidy (Path.isSegment_segments path)
  rw [hr] at he
  obtain ⟨-, -, hmap, htidy⟩ := he
  exact h.change hmap htidy (.makeDirectories _ _)

theorem deleteFile (hfile : files (segments path)) (hr : m₁.deleteFile path = .ok m₂) :
    m.KeptOutside files directories m₂ := by
  have he := deleteFile_ends h.tidy (Path.isSegment_segments path)
  rw [hr] at he
  obtain ⟨hfound, hmap, htidy⟩ := he
  exact h.change hmap htidy (.unbind hfile hfound.not_directory)

theorem deleteDirectory (hfiles : ∀ q, segments path <+: q → files q)
    (hdirs : ∀ q, segments path <+: q → directories q) (hr : m₁.deleteDirectory path = .ok m₂) :
    m.KeptOutside files directories m₂ := by
  have he := deleteDirectory_ends h.tidy (Path.isSegment_segments path)
  rw [hr] at he
  obtain ⟨-, -, hmap, htidy⟩ := he
  exact h.change hmap htidy (.unbindBelow hfiles hdirs _)

end KeptOutside

end Memory

/-! ## Operations -/

namespace Store

variable {files directories : List Text → Prop} {m : Memory} {path source dest : Text}

theorem keepsOutside_createDirectory :
    Keeps (m.KeptOutside files directories) (createDirectory path) :=
  keeps_createDirectory fun _ _ _ h => h.createDirectory

theorem keepsOutside_deleteDirectory (hfiles : ∀ q, segments path <+: q → files q)
    (hdirs : ∀ q, segments path <+: q → directories q) :
    Keeps (m.KeptOutside files directories) (deleteDirectory path) :=
  keeps_deleteDirectory fun _ _ h => h.deleteDirectory hfiles hdirs

section

variable (hfile : files (segments path))
include hfile

theorem keepsOutside_write (content : Text) :
    Keeps (m.KeptOutside files directories) (write path content) :=
  keeps_write fun _ _ h => h.write hfile

theorem keepsOutside_createFile (content : Text) :
    Keeps (m.KeptOutside files directories) (createFile path content) :=
  keeps_createFile fun _ h => h.createFile hfile content

theorem keepsOutside_deleteFile : Keeps (m.KeptOutside files directories) (deleteFile path) :=
  keeps_deleteFile fun _ _ h => h.deleteFile hfile

end

theorem keepsOutside_copy (hdest : files (segments dest)) :
    Keeps (m.KeptOutside files directories) (copy source dest) :=
  keeps_copy fun _ text h => h.createFile hdest text

theorem keepsOutside_move (hsource : files (segments source)) (hdest : files (segments dest)) :
    Keeps (m.KeptOutside files directories) (move source dest) := by
  refine keeps_move (fun _ text h => h.createFile hdest text) (fun m₁ m₂ path hpath h => ?_)
    fun _ _ _ h => h.write hdest
  rcases hpath with rfl | rfl
  · exact h.deleteFile hsource
  · exact h.deleteFile hdest

end Store

end PipeShell
