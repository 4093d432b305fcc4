import PipeShell.Proofs.Folder.Order
import PipeShell.Proofs.Store.Calls

/-!
# The listing of a store in memory

The listing tells what a store holds: each entry once, under its normal path and after the
directories above it. The questions to the store and the listings of its directories agree with it.
-/

namespace PipeShell

open PipeShell.Path (segments IsAbove)

namespace Memory

variable {m : Memory} {path : Text}

/-- The entries tell what the store holds, and the answers of the store agree with them. -/
structure Agrees (m : Memory) (es : List StoreEntry) : Prop where
  distinct : (es.map (·.path)).Nodup
  normal : ∀ e ∈ es, e.path ≠ [] ∧ Path.join [e.path] = e.path
  named : ∀ e ∈ es, e.name = Path.name e.path
  /-- What is above an entry is listed before it, and as a directory. -/
  ordered : ∀ front e back, es = front ++ e :: back →
    ∀ above, above ≠ [] → IsAbove above (segments e.path) →
      ∃ a ∈ front, segments a.path = above ∧ a.isDirectory = true
  holds : ∀ path, m.holds path = true
    ↔ segments path = [] ∨ ∃ e ∈ es, e.path = Path.join [path]
  isDirectory : ∀ path, m.isDirectory path = true
    ↔ segments path = [] ∨ ∃ e ∈ es, e.path = Path.join [path] ∧ e.isDirectory = true
  read : ∀ path, (∃ text, m.read path = .ok text)
    ↔ ∃ e ∈ es, e.path = Path.join [path] ∧ e.isDirectory = false
  /-- A directory lists what is below it, in the same order. -/
  list : ∀ path, m.isDirectory path = true →
    m.list path = .ok (es.filter fun e => decide (IsAbove (segments path) (segments e.path)))

/-! ## Entries of the tree -/

/-- An entry of the tree as the store lists it. -/
def listed (e : List Text × Option Text) : StoreEntry :=
  entry e.1 e.2.isNone

theorem list_of_folder {inside : Folder Text}
    (h : m.tree.node? (segments path) = some (.folder inside)) :
    m.list path = .ok ((inside.entriesUnder (segments path)).map listed) := by
  rw [list, directory_eq_ok.mpr h]
  rfl

theorem isSegment_of_mem_entries (hm : m.Tidy Path.IsSegment) {e : List Text × Option Text}
    (he : e ∈ m.tree.entries) : ∀ s ∈ e.1, Path.IsSegment s := by
  obtain ⟨below, hpath, hbelow⟩ := hm.entriesUnder he
  rw [hpath]
  exact hbelow

theorem segments_listed (hm : m.Tidy Path.IsSegment) {e : List Text × Option Text}
    (he : e ∈ m.tree.entries) : segments (listed e).path = e.1 :=
  Path.segments_ofSegments (isSegment_of_mem_entries hm he)

/-- The listing has a path and its kind when the map of the store binds it to that kind. -/
theorem exists_listed (hm : m.Tidy Path.IsSegment) (path : Text) (kind : Bool → Prop) :
    (∃ e ∈ m.tree.entries.map listed, e.path = Path.join [path] ∧ kind e.isDirectory)
      ↔ segments path ≠ [] ∧ ∃ b, m.pathMap (segments path) = some b ∧ kind b.content?.isNone := by
  have hjoin : Path.join [path] = Path.ofSegments (segments path) := by simp [Path.join]
  constructor
  · rintro ⟨_, hmem, hpath, hkind⟩
    obtain ⟨⟨names, content⟩, he, rfl⟩ := List.mem_map.mp hmem
    have hnames : segments (listed (names, content)).path = names := segments_listed hm he
    rw [hpath] at hnames
    obtain rfl : segments path = names := by simpa using hnames
    obtain ⟨hne, hb⟩ := (Folder.mem_entries hm).mp he
    obtain ⟨b, hb, rfl⟩ := Option.map_eq_some_iff.mp hb
    exact ⟨hne, b, hb, hkind⟩
  · rintro ⟨hne, b, hb, hkind⟩
    refine ⟨listed (segments path, b.content?), List.mem_map_of_mem ?_, hjoin.symm, hkind⟩
    refine (Folder.mem_entries hm).mpr ⟨hne, ?_⟩
    change (m.pathMap (segments path)).map Binding.content? = some b.content?
    rw [hb]
    rfl

/-- What a store lists for its root agrees with all its other answers. -/
theorem agrees_listed (hm : m.Tidy Path.IsSegment) : m.Agrees (m.tree.entries.map listed) where
  distinct := by
    have hpaths : (m.tree.entries.map listed).map (·.path)
        = (m.tree.entries.map Prod.fst).map Path.ofSegments := by
      rw [List.map_map, List.map_map]
      rfl
    rw [hpaths]
    refine List.Nodup.map_on ?_ (Folder.nodup_entriesUnder hm)
    intro p hp q hq hpq
    obtain ⟨e, he, rfl⟩ := List.mem_map.mp hp
    obtain ⟨e', he', rfl⟩ := List.mem_map.mp hq
    exact Path.ofSegments_injective (isSegment_of_mem_entries hm he)
      (isSegment_of_mem_entries hm he') hpq
  normal := by
    intro _ hmem
    obtain ⟨e, he, rfl⟩ := List.mem_map.mp hmem
    have hsegments := segments_listed hm he
    refine ⟨fun hnil => ?_, by simp [Path.join, hsegments]; rfl⟩
    rw [hnil] at hsegments
    exact ((Folder.mem_entries hm).mp he).1 hsegments.symm
  named := by
    intro _ hmem
    obtain ⟨e, he, rfl⟩ := List.mem_map.mp hmem
    rw [Path.name, Path.parentAndName, segments_listed hm he]
    rfl
  ordered := by
    intro front e back h above hne habove
    obtain ⟨front', rest, hentries, rfl, hrest⟩ := List.map_eq_append_iff.mp h
    obtain ⟨e', back', rfl, rfl, rfl⟩ := List.map_eq_cons_iff.mp hrest
    have he : e' ∈ m.tree.entries := by simp [hentries]
    rw [segments_listed hm he] at habove
    have hfront := Folder.above_mem_front hm hentries hne habove
    have hmem : (above, none) ∈ m.tree.entries := by simp [hentries, hfront]
    exact ⟨listed (above, none), List.mem_map_of_mem hfront, segments_listed hm hmem, rfl⟩
  holds := by
    intro path
    have hany := exists_listed hm path fun _ => True
    simp only [and_true] at hany
    rw [hany, holds_iff]
    by_cases hne : segments path = []
    · simp [hne, m.prefixClosed_pathMap.root]
    · simp [hne, Option.ne_none_iff_exists']
  isDirectory := by
    intro path
    rw [exists_listed hm path (· = true), isDirectory_iff]
    by_cases hne : segments path = []
    · simp [hne, m.prefixClosed_pathMap.root]
    · simp [hne]
  read := by
    intro path
    rw [exists_listed hm path (· = false)]
    simp only [read_eq_ok, Binding.isNone_content?_eq_false]
    by_cases hne : segments path = []
    · simp [hne, m.prefixClosed_pathMap.root]
    · simp [hne]
  list := by
    intro path hdir
    obtain ⟨inside, hn⟩ := Folder.binding?_eq_directory.mp (isDirectory_iff.mp hdir)
    rw [list_of_folder hn, Folder.entriesUnder_eq_filter hm hn, List.filter_map]
    congr 2
    refine List.filter_congr fun e he => ?_
    rw [Function.comp_apply, segments_listed hm he]

/-- In every store that calls lead to, the listing of the root and the answers of the store agree. -/
theorem Reached.exists_agrees (h : m.Reached) : ∃ es, m.list [] = .ok es ∧ m.Agrees es := by
  have hroot : m.list [] = .ok (m.tree.entries.map listed) :=
    list_of_folder (Folder.node?_nil m.tree)
  exact ⟨_, hroot, agrees_listed h.tidy⟩

/-- A store with a file in a directory and one beside it. -/
def nested : Memory :=
  { tree := .folder ['d'] (.file ['f'] ['x'] .empty) (.file ['a'] ['y'] .empty), quota := 10 }

theorem reached_nested : nested.Reached :=
  ((Memory.Reached.fresh 10).call (w := .ofMemory { quota := 10 } {} {})
    (.createFile ['d', '/', 'f'] ['x']) rfl rfl).call
    (w := .ofMemory
      { tree := .folder ['d'] (.file ['f'] ['x'] .empty) .empty, quota := 10 } {} {})
    (.createFile ['/', 'a'] ['y']) rfl rfl

/-- The directory comes before its file and lists it, however its path is written. -/
theorem exists_agrees_nested :
    nested.list [] = .ok [⟨['d'], ['d'], true⟩, ⟨['f'], ['d', '/', 'f'], false⟩,
        ⟨['a'], ['a'], false⟩]
      ∧ nested.list ['.', '/', 'd', '/'] = .ok [⟨['f'], ['d', '/', 'f'], false⟩] := by
  obtain ⟨es, hlist, hagrees⟩ := reached_nested.exists_agrees
  have hroot : nested.list [] = .ok [⟨['d'], ['d'], true⟩, ⟨['f'], ['d', '/', 'f'], false⟩,
      ⟨['a'], ['a'], false⟩] := rfl
  obtain rfl := Except.ok.inj (hlist.symm.trans hroot)
  exact ⟨hroot, hagrees.list ['.', '/', 'd', '/'] rfl⟩

end Memory

end PipeShell
