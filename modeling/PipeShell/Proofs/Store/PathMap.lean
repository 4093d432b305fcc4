import PipeShell.Proofs.Folder.Bindings
import PipeShell.Failure

/-!
# Maps of paths

What a store binds its paths to, apart from how it keeps its files, and the changes that its
operations are to make there.
-/

namespace PipeShell

/-- What paths, given by their segments, are bound to. -/
abbrev PathMap := List Text → Option (Binding Text)

namespace PathMap

/-- The root is a directory, and so is all that stands above a bound path. -/
structure PrefixClosed (m : PathMap) : Prop where
  root : m [] = some .directory
  above : ∀ p q, q ≠ [] → m (p ++ q) ≠ none → m p = some .directory

/-- The path is bound to a file. -/
def IsFile (m : PathMap) (path : List Text) : Prop :=
  ∃ text, m path = some (.file text)

/-- The map with a path bound to a file. -/
def bindFile (path : List Text) (text : Text) (m : PathMap) : PathMap :=
  fun q => if q = path then some (.file text) else m q

/-- The map with a path and all above it bound to directories, as far as they are unbound. -/
def makeDirectories (path : List Text) (m : PathMap) : PathMap :=
  fun q => if q <+: path ∧ m q = none then some .directory else m q

/-- The map with a path bound to a file below directories, which are made where they are missing. -/
def create (path : List Text) (text : Text) (m : PathMap) : PathMap :=
  (m.makeDirectories path.dropLast).bindFile path text

/-- The map with the text of a file at another path too. -/
def copy (source dest : List Text) (m : PathMap) : PathMap :=
  match m source with
  | some (.file text) => m.create dest text
  | _ => m

/-- The map without a path. -/
def unbind (path : List Text) (m : PathMap) : PathMap :=
  fun q => if q = path then none else m q

/-- The map without a path and all that is below it. -/
def unbindBelow (path : List Text) (m : PathMap) : PathMap :=
  fun q => if path <+: q then none else m q

/-- A file stands at the path or above it. -/
def Blocked (path : List Text) (m : PathMap) : Prop :=
  ∃ p, p <+: path ∧ m.IsFile p

/-- No file can be created at the path: it is a directory, or a file stands above it. -/
def Closed (path : List Text) (m : PathMap) : Prop :=
  m path = some .directory ∨ m.Blocked path.dropLast

/-- Every binding is kept. -/
def Within (m m' : PathMap) : Prop :=
  ∀ path b, m path = some b → m' path = some b

/-- The map of a store without entries. -/
def bare : PathMap :=
  fun q => if q = [] then some .directory else none

/-! ## Changes -/

theorem IsFile.not_directory {m : PathMap} {path : List Text} (h : m.IsFile path) :
    m path ≠ some .directory := by
  obtain ⟨text, h⟩ := h
  simp [h]

theorem Within.refl (m : PathMap) : m.Within m := fun _ _ h => h

theorem Within.trans {m m' m'' : PathMap} (h : m.Within m') (h' : m'.Within m'') : m.Within m'' :=
  fun path b hb => h' path b (h path b hb)

theorem within_makeDirectories (m : PathMap) (path : List Text) :
    m.Within (m.makeDirectories path) := by
  intro q b hq
  simp [makeDirectories, hq]

/-- Directories are made of the missing ones alone, because no file is in the way. -/
theorem makeDirectories_of_not_blocked {m : PathMap} {path : List Text} (h : ¬m.Blocked path)
    (q : List Text) :
    m.makeDirectories path q = if q <+: path then some .directory else m q := by
  by_cases hq : q <+: path
  · cases hb : m q with
    | none => simp [makeDirectories, hq, hb]
    | some b =>
        cases b with
        | directory => simp [makeDirectories, hq, hb]
        | file text => exact absurd ⟨q, hq, text, hb⟩ h
  · simp [makeDirectories, hq]

theorem makeDirectories_self {m : PathMap} {path : List Text} (h : ¬m.Blocked path) :
    m.makeDirectories path path = some .directory := by
  simp [makeDirectories_of_not_blocked h]

/-- What stands at a path does not change when the directories above it are made. -/
theorem makeDirectories_dropLast {m : PathMap} {path : List Text} (hne : path ≠ []) :
    m.makeDirectories path.dropLast path = m path := by
  have hlen : ¬path <+: path.dropLast := by
    intro h
    have hl := h.length_le
    have hp := List.length_pos_iff.mpr hne
    simp only [List.length_dropLast] at hl
    omega
  simp [makeDirectories, hlen]

/-- A copied file stays where it is, and does not become a directory for its copy. -/
theorem IsFile.copy {m : PathMap} {source : List Text} (h : m.IsFile source) (dest : List Text) :
    (m.copy source dest).IsFile source := by
  obtain ⟨text, h⟩ := h
  refine ⟨text, ?_⟩
  by_cases hs : source = dest
  · subst hs
    simp [PathMap.copy, h, create, bindFile]
  · simp [PathMap.copy, h, create, bindFile, makeDirectories, hs]

/-! ## Moves -/

/-- The file at `source` is now at `dest`, and no other file has changed. -/
structure Moved (m m' : PathMap) (source dest : List Text) : Prop where
  content : ∃ text, m source = some (.file text) ∧ m' dest = some (.file text)
  others : ∀ path text, path ≠ source → path ≠ dest →
    (m path = some (.file text) ↔ m' path = some (.file text))

theorem makeDirectories_eq_file {m : PathMap} {path q : List Text} {text : Text} :
    m.makeDirectories path q = some (.file text) ↔ m q = some (.file text) := by
  by_cases hq : q <+: path ∧ m q = none <;> simp [makeDirectories, hq]

theorem moved_copy_unbind {m : PathMap} {source dest : List Text} (hs : m.IsFile source) :
    m.Moved ((m.copy source dest).unbind source) source dest ↔ source ≠ dest := by
  obtain ⟨text, hs⟩ := hs
  constructor
  · rintro ⟨⟨_, _, hd⟩, _⟩ rfl
    simp [unbind] at hd
  · intro hne
    refine ⟨⟨text, hs, ?_⟩, fun q t hqs hqd => ?_⟩
    · simp [unbind, Ne.symm hne, copy, hs, create, bindFile]
    · simp [unbind, hqs, copy, hs, create, bindFile, hqd, makeDirectories_eq_file]

theorem moved_self {m : PathMap} {path : List Text} : m.Moved m path path ↔ m.IsFile path := by
  constructor
  · rintro ⟨⟨text, h, _⟩, _⟩
    exact ⟨text, h⟩
  · rintro ⟨text, h⟩
    exact ⟨⟨text, h, h⟩, fun _ _ _ _ => Iff.rfl⟩

/-! ## Above a bound path -/

namespace PrefixClosed

variable {m : PathMap} {path : List Text} {text : Text}

theorem above_bound (hc : m.PrefixClosed) (h : m path ≠ none) :
    m path.dropLast = some .directory := by
  by_cases hne : path = []
  · subst hne
    exact hc.root
  · refine hc.above path.dropLast [path.getLast hne] (by simp) ?_
    rwa [List.dropLast_concat_getLast hne]

theorem above_file (hc : m.PrefixClosed) (h : m path = some (.file text)) :
    m path.dropLast = some .directory :=
  hc.above_bound (by simp [h])

theorem directory_above (hc : m.PrefixClosed) {above : List Text} (hpre : above <+: path)
    (h : m path = some .directory) : m above = some .directory := by
  obtain ⟨below, rfl⟩ := hpre
  by_cases hb : below = []
  · simpa [hb] using h
  · exact hc.above above below hb (by simp [h])

theorem makeDirectories_of_directory (hc : m.PrefixClosed) (h : m path = some .directory) :
    m.makeDirectories path = m := by
  funext q
  by_cases hq : q <+: path
  · simp [makeDirectories, hc.directory_above hq h]
  · simp [makeDirectories, hq]

/-- Nothing is bound below a file. -/
theorem unbindBelow_file (hc : m.PrefixClosed) (h : m path = some (.file text)) :
    m.unbindBelow path = m.unbind path := by
  funext q
  by_cases hq : q = path
  · simp [hq, unbindBelow, unbind]
  · by_cases hpre : path <+: q
    · obtain ⟨below, rfl⟩ := hpre
      have hnone : m (path ++ below) = none := by
        by_cases hb : m (path ++ below) = none
        · exact hb
        · have hdir := hc.above path below (by simpa using hq) hb
          simp [h] at hdir
      simp [unbindBelow, unbind, hnone]
    · simp [unbindBelow, unbind, hq, hpre]

end PrefixClosed

end PathMap

end PipeShell
