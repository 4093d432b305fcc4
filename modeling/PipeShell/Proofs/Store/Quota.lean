import PipeShell.Proofs.Folder.Sum
import PipeShell.Proofs.Store.Steps
import PipeShell.Proofs.Text.Utf8

/-!
# The quota of a store in memory

A store holds as many bytes as its files have, and keeps to its quota. A content is refused exactly
when the store would be over its quota with it, and what a move puts back always fits.
-/

namespace PipeShell

open PipeShell.Path (segments)

namespace Memory

variable {m m' : Memory} {path content : Text}

/-! ## Putting a content into place -/

/-- The store with the directories above a path. -/
def prepared (m : Memory) (path : Text) : Memory :=
  { m with tree := m.tree.ensure (segments path).dropLast }

/-- The store with a file of the content at the path and with the directories above it, whatever the
quota says. -/
def replacing (m : Memory) (path content : Text) : Memory :=
  { m with tree := (m.prepared path).tree.write (segments path) content }

/-- The bytes of the file at a path, if there is one. -/
def bytesAt (m : Memory) (path : Text) : Nat :=
  ((m.pathMap (segments path)).bind Binding.content?).elim 0 Text.byteLength

@[simp] theorem quota_replacing : (m.replacing path content).quota = m.quota := rfl

theorem bytesAt_of_file {text : Text} (h : m.pathMap (segments path) = some (.file text)) :
    m.bytesAt path = Text.byteLength text := by
  rw [bytesAt, h]
  rfl

theorem not_closed_of_file (h : m.pathMap.IsFile (segments path)) :
    ¬m.pathMap.Closed (segments path) := by
  rintro (hd | ⟨p, hp, hfile⟩)
  · exact h.not_directory hd
  · exact hfile.not_directory (m.prefixClosed_pathMap.directory_above hp (above_file h).2)

@[simp] theorem used_prepared : (m.prepared path).used = m.used :=
  Folder.sum_ensure _ _ _

theorem prepared_of_file (h : m.pathMap.IsFile (segments path)) : m.prepared path = m := by
  rw [prepared, Folder.ensure_of_directory (above_file h).2]

theorem prepared_tidy (hm : m.Tidy Path.IsSegment) : (m.prepared path).Tidy Path.IsSegment :=
  Folder.tidy_ensure hm fun s hs => Path.isSegment_segments path s (List.dropLast_subset _ hs)

theorem replacing_tidy (hm : m.Tidy Path.IsSegment) :
    (m.replacing path content).Tidy Path.IsSegment :=
  Folder.tidy_write (prepared_tidy hm) (Path.isSegment_segments path) content

section Open

variable (hm : m.Tidy Path.IsSegment) (hopen : ¬m.pathMap.Closed (segments path))

include hopen in
theorem segments_ne_nil_of_open : segments path ≠ [] := by
  intro hnil
  rw [hnil] at hopen
  exact hopen (.inl m.prefixClosed_pathMap.root)

include hm hopen

theorem ensureDirectory_of_open :
    m.ensureDirectory (segments path).dropLast = .ok (m.prepared path) := by
  have he := ensureDirectory_ends hm fun s hs =>
    Path.isSegment_segments path s (List.dropLast_subset _ hs)
  cases hr : m.ensureDirectory (segments path).dropLast with
  | ok made => rw [eq_of_ensureDirectory_eq_ok hr, prepared]
  | error f =>
      rw [hr] at he
      exact absurd (.inr he.1) hopen

theorem pathMap_prepared :
    (m.prepared path).pathMap = m.pathMap.makeDirectories (segments path).dropLast :=
  pathMap_ensure hm fun h => hopen (.inr h)

theorem pathMap_prepared_self :
    (m.prepared path).pathMap (segments path) = m.pathMap (segments path) := by
  rw [pathMap_prepared hm hopen,
    PathMap.makeDirectories_dropLast (segments_ne_nil_of_open hopen)]

theorem pathMap_prepared_above :
    (m.prepared path).pathMap (segments path).dropLast = some .directory := by
  rw [pathMap_prepared hm hopen]
  exact PathMap.makeDirectories_self fun h => hopen (.inr h)

theorem pathMap_replacing (content : Text) :
    (m.replacing path content).pathMap = m.pathMap.create (segments path) content := by
  have hself : (m.prepared path).pathMap (segments path) ≠ some .directory := by
    rw [pathMap_prepared_self hm hopen]
    exact fun h => hopen (.inl h)
  have hwrite := pathMap_write (prepared_tidy hm) (pathMap_prepared_above hm hopen) hself content
  rw [pathMap_prepared hm hopen] at hwrite
  exact hwrite

theorem used_replacing (content : Text) :
    (m.replacing path content).used + m.bytesAt path = m.used + Text.byteLength content := by
  have hself := pathMap_prepared_self hm hopen
  have hfile : (m.prepared path).tree.binding? (segments path) ≠ some .directory := fun h =>
    hopen (.inl (hself.symm.trans h))
  have hsum := Folder.sum_write Text.byteLength (segments_ne_nil_of_open hopen)
    (pathMap_prepared_above hm hopen) hfile content
  rw [bytesAt, ← hself, ← used_prepared (m := m)]
  exact hsum

theorem checkQuota_prepared (content : Text) :
    (m.prepared path).checkQuota (m.bytesAt path) content
      = if m.quota < (m.replacing path content).used then
          .error (.quotaExceeded (m.replacing path content).used m.quota)
        else .ok () := by
  have hused := used_replacing hm hopen content
  have hprojected : ((m.prepared path).used : Int) - m.bytesAt path + Text.byteLength content
      = (m.replacing path content).used := by
    rw [used_prepared]
    omega
  simp only [checkQuota, hprojected]
  rfl

/-- Where a file can be created, it is created unless the store would be over its quota. -/
theorem createFile_of_open (content : Text) :
    m.createFile path content
      = if m.quota < (m.replacing path content).used then
          (.error (.quotaExceeded (m.replacing path content).used m.quota), m.prepared path)
        else (.ok (entry (segments path) false), m.replacing path content) := by
  have hput : (m.prepared path).put (segments path) (m.bytesAt path) content
      = if m.quota < (m.replacing path content).used then
          (.error (.quotaExceeded (m.replacing path content).used m.quota), m.prepared path)
        else (.ok (entry (segments path) false), m.replacing path content) := by
    rw [put, checkQuota_prepared hm hopen]
    by_cases hq : m.quota < (m.replacing path content).used
    · simp only [if_pos hq]
    · simp only [if_neg hq]
      rfl
  have hself := pathMap_prepared_self hm hopen
  rw [createFile_eq (segments_ne_nil_of_open hopen) (ensureDirectory_of_open hm hopen), ← hput,
    bytesAt, ← hself, pathMap, Folder.binding?]
  cases hn : (m.prepared path).tree.node? (segments path) with
  | none => rfl
  | some n =>
      cases n with
      | file text => rfl
      | folder inside =>
          refine absurd (.inl (hself.symm.trans ?_)) hopen
          rw [pathMap, Folder.binding?, hn]
          rfl

end Open

/-- Where there is a file, its content is replaced unless the store would be over its quota. -/
theorem write_of_file (hm : m.Tidy Path.IsSegment) (hfile : m.pathMap.IsFile (segments path))
    (content : Text) :
    m.write path content
      = if m.quota < (m.replacing path content).used then
          .error (.quotaExceeded (m.replacing path content).used m.quota)
        else .ok (m.replacing path content) := by
  have hcheck := checkQuota_prepared hm (not_closed_of_file hfile) content
  obtain ⟨former, hformer⟩ := hfile
  rw [prepared_of_file ⟨former, hformer⟩, bytesAt_of_file hformer] at hcheck
  rw [write, Memory.read_eq_ok.mpr hformer, Attempt.ok_bind, hcheck]
  by_cases hq : m.quota < (m.replacing path content).used
  · rw [if_pos hq, if_pos hq, Attempt.error_bind]
  · rw [if_neg hq, if_neg hq, Attempt.ok_bind, replacing, prepared_of_file ⟨former, hformer⟩,
      Attempt.pure_eq_ok]

/-! ## Steps -/

/-- A file that is not created for want of room leaves the directories that were made for it; any
other failure leaves the store as it is. -/
theorem createFile_snd_of_kind (hm : m.Tidy Path.IsSegment) {f : Failure}
    (h : (m.createFile path content).1 = .error f) :
    f.kind = .quotaExceeded ∧ ¬m.pathMap.Closed (segments path)
        ∧ (m.createFile path content).2 = m.prepared path
      ∨ f.kind ≠ .quotaExceeded ∧ (m.createFile path content).2 = m := by
  by_cases hclosed : m.pathMap.Closed (segments path)
  · have hends := (createFile_ends hm (Path.isSegment_segments path) content).1
    rw [h] at hends
    refine .inr ⟨?_, createFile_snd_of_closed hm (Path.isSegment_segments path) hclosed content⟩
    cases hends with
    | refused _ hf _ => rcases hf with hf | hf <;> simp [hf]
    | full hopen _ _ => exact absurd hclosed hopen
  · rw [createFile_of_open hm hclosed] at h ⊢
    by_cases hq : m.quota < (m.replacing path content).used
    · rw [if_pos hq] at h ⊢
      cases h
      exact .inl ⟨rfl, hclosed, rfl⟩
    · simp [hq] at h

/-- A created file stands where it could be created, and the store keeps to its quota with it. -/
theorem createFile_snd_of_ok (hm : m.Tidy Path.IsSegment) {e : StoreEntry}
    (h : (m.createFile path content).1 = .ok e) :
    ¬m.pathMap.Closed (segments path) ∧ ((m.replacing path content).used : Int) ≤ m.quota
      ∧ (m.createFile path content).2 = m.replacing path content := by
  have hopen : ¬m.pathMap.Closed (segments path) := by
    have hends := (createFile_ends hm (Path.isSegment_segments path) content).1
    rw [h] at hends
    cases hends with
    | done hopen _ _ => exact hopen
  rw [createFile_of_open hm hopen] at h ⊢
  by_cases hq : m.quota < (m.replacing path content).used
  · simp [hq] at h
  · rw [if_neg hq]
    exact ⟨hopen, Int.not_lt.mp hq, rfl⟩

theorem deleteFile_eq_ok (h : m.deleteFile path = .ok m') :
    m.pathMap.IsFile (segments path) ∧ m' = { m with tree := m.tree.erase (segments path) } := by
  rw [deleteFile] at h
  cases hr : m.read path with
  | error f => simp [hr] at h
  | ok text =>
      refine ⟨⟨text, read_eq_ok.mp hr⟩, ?_⟩
      simpa [hr] using h.symm

theorem deleteDirectory_eq_ok (h : m.deleteDirectory path = .ok m') :
    segments path ≠ [] ∧ m.pathMap (segments path) = some .directory
      ∧ m' = { m with tree := m.tree.erase (segments path) } := by
  rw [deleteDirectory] at h
  by_cases hne : segments path = []
  · simp [hne] at h
  · cases hr : m.directory path with
    | error f => simp [hne, hr] at h
    | ok inside =>
        refine ⟨hne, Folder.binding?_eq_directory.mpr ⟨inside, directory_eq_ok.mp hr⟩, ?_⟩
        simpa [hne, hr] using h.symm

theorem createDirectory_eq_ok {e : StoreEntry} (h : m.createDirectory path = .ok (e, m')) :
    m' = { m with tree := m.tree.ensure (segments path) } := by
  rw [createDirectory] at h
  by_cases hne : segments path = []
  · simp [hne] at h
  · cases hr : m.ensureDirectory (segments path) with
    | error f => simp [hne, hr] at h
    | ok made =>
        obtain ⟨_, rfl⟩ : entry (segments path) true = e ∧ made = m' := by simpa [hne, hr] using h
        exact eq_of_ensureDirectory_eq_ok hr

theorem used_erase_le {path : List Text} (hne : path ≠ []) (hbound : m.pathMap path ≠ none) :
    used { m with tree := m.tree.erase path } ≤ m.used :=
  Folder.sum_erase_le _ hne (m.prefixClosed_pathMap.above_bound hbound)

/-- A step keeps the quota and, unless it finds room there, does not add a byte. -/
theorem Step.used_le (hm : m.Tidy Path.IsSegment) (h : m.Step m') :
    m'.quota = m.quota ∧ ((m'.used : Int) ≤ m.quota ∨ m'.used ≤ m.used) := by
  -- Only a content that was checked against the quota adds bytes; a failed creation leaves
  -- directories behind, which have none.
  cases h with
  | @write _ path content h =>
      have he := write_ends hm (Path.isSegment_segments path) content
      rw [h] at he
      rw [write_of_file hm he.1] at h
      by_cases hq : m.quota < (m.replacing path content).used
      · simp [hq] at h
      · obtain rfl : m.replacing path content = m' := by simpa [hq] using h
        exact ⟨rfl, .inl (Int.not_lt.mp hq)⟩
  | createFile path content =>
      cases hr : (m.createFile path content).1 with
      | error f =>
          rcases createFile_snd_of_kind hm hr with ⟨-, -, hsnd⟩ | ⟨-, hsnd⟩
          · rw [hsnd]
            exact ⟨rfl, .inr (Nat.le_of_eq used_prepared)⟩
          · rw [hsnd]
            exact ⟨rfl, .inr (Nat.le_refl _)⟩
      | ok e =>
          obtain ⟨-, hle, hsnd⟩ := createFile_snd_of_ok hm hr
          rw [hsnd]
          exact ⟨rfl, .inl hle⟩
  | createDirectory h =>
      obtain rfl := createDirectory_eq_ok h
      exact ⟨rfl, .inr (Nat.le_of_eq (Folder.sum_ensure _ _ _))⟩
  | deleteFile h =>
      obtain ⟨⟨text, hfile⟩, rfl⟩ := deleteFile_eq_ok h
      exact ⟨rfl, .inr (used_erase_le (above_file ⟨text, hfile⟩).1 (by simp [hfile]))⟩
  | deleteDirectory h =>
      obtain ⟨hne, hdir, rfl⟩ := deleteDirectory_eq_ok h
      exact ⟨rfl, .inr (used_erase_le hne (by simp [hdir]))⟩
  | clear => exact ⟨rfl, .inr (Nat.zero_le _)⟩

theorem Step.tidy (hm : m.Tidy Path.IsSegment) (h : m.Step m') : m'.Tidy Path.IsSegment := by
  cases h with
  | write h => exact (write_gives hm (Path.isSegment_segments _) _).given h
  | createFile path content => exact (createFile_ends hm (Path.isSegment_segments path) content).2
  | createDirectory h => exact (createDirectory_gives hm (Path.isSegment_segments _)).given h
  | deleteFile h => exact (deleteFile_gives hm (Path.isSegment_segments _)).given h
  | deleteDirectory h => exact (deleteDirectory_gives hm (Path.isSegment_segments _)).given h
  | clear => exact m.clear_tidy

/-- The store is tidy and, unless its quota is negative, keeps to it. -/
structure WithinQuota (m : Memory) : Prop where
  tidy : m.Tidy Path.IsSegment
  used_le : 0 ≤ m.quota → (m.used : Int) ≤ m.quota

theorem Step.withinQuota (hm : m.WithinQuota) (h : m.Step m') : m'.WithinQuota where
  tidy := h.tidy hm.tidy
  used_le hq := by
    obtain ⟨hquota, hle⟩ := h.used_le hm.tidy
    rw [hquota] at hq ⊢
    have := hm.used_le hq
    omega

theorem Reached.withinQuota (h : m.Reached) : m.WithinQuota :=
  h.of_step (fun _ _ hm hstep => hstep.withinQuota hm) fun _ => ⟨trivial, id⟩

theorem used_eq_contents (m : Memory) :
    m.used = (m.tree.contents.map fun text => (Text.encode text).length).sum := by
  simp only [Text.length_encode]
  exact Folder.sum_eq_contents _ _

/-- What a content took the place of fits back in. -/
theorem used_restored (hm : m.Tidy Path.IsSegment) {former : Text}
    (hformer : m.pathMap (segments path) = some (.file former)) :
    ((m.replacing path content).replacing path former).used = m.used := by
  have hopen := not_closed_of_file ⟨former, hformer⟩
  have hput := used_replacing hm hopen content
  have hfile : (m.replacing path content).pathMap (segments path) = some (.file content) := by
    rw [pathMap_replacing hm hopen]
    simp [PathMap.create, PathMap.bindFile]
  have hback := used_replacing (replacing_tidy hm) (not_closed_of_file ⟨content, hfile⟩) former
  rw [bytesAt_of_file hformer] at hput
  rw [bytesAt_of_file hfile] at hback
  omega

end Memory

/-! ## Operations -/

theorem Failure.IsRefusal.isExpected {f : Failure} (h : f.IsRefusal) : f.isExpected = true := by
  rcases h with h | h <;> simp [Failure.isExpected, h]

namespace Store

open PipeShell.Action Memory

variable {α : Type} {w w' : World} {m : Memory} {path content source dest : Text} {f : Failure}

/-- The operation puts a content at a path, unless the store would be over its quota with it: then it
fails for that. -/
def Replaces (w : World) (m : Memory) (path content : Text) (x : Action World α) : Prop :=
  if m.quota < (m.replacing path content).used then
    (x.outcome w).1 = .error (.quotaExceeded (m.replacing path content).used m.quota)
  else
    (∃ a, (x.outcome w).1 = .ok a)
      ∧ ∃ records, (x.outcome w).2 = w.stored (m.replacing path content) records

theorem replaces_write (hm : m.Tidy Path.IsSegment) (hw : w.backing = .memory m)
    (hfile : m.pathMap.IsFile (segments path)) (hf : path ∉ w.faults.unwritable) (content : Text) :
    Replaces w m path content (write path content) := by
  have hwrite := write_of_file hm hfile content
  unfold Replaces
  by_cases hq : m.quota < (m.replacing path content).used
  · rw [if_pos hq] at hwrite ⊢
    rw [outcome_write_error hw hf hwrite]
  · rw [if_neg hq] at hwrite ⊢
    obtain ⟨records, ho⟩ := outcome_write_ok hw hf hwrite
    rw [ho]
    exact ⟨⟨_, rfl⟩, records, rfl⟩

theorem replaces_createFile (hm : m.Tidy Path.IsSegment) (hw : w.backing = .memory m)
    (hopen : ¬m.pathMap.Closed (segments path)) (content : Text) :
    Replaces w m path content (createFile path content) := by
  have hcreate := createFile_of_open hm hopen content
  unfold Replaces
  by_cases hq : m.quota < (m.replacing path content).used
  · rw [if_pos hq] at hcreate ⊢
    rw [outcome_createFile_error hw (by rw [hcreate])]
  · rw [if_neg hq] at hcreate ⊢
    have hresult : (m.createFile path content).1 = .ok (entry (segments path) false) := by
      rw [hcreate]
    obtain ⟨records, ho⟩ := outcome_createFile_ok hw hresult
    rw [ho, hcreate]
    exact ⟨⟨_, rfl⟩, records, rfl⟩

/-! ## Moves that fail to delete -/

/-- A copy that succeeds puts the content of its source at the destination. -/
theorem copy_eq_ok (hm : m.Tidy Path.IsSegment) (hw : w.backing = .memory m) {e : StoreEntry}
    (h : (copy source dest).outcome w = (.ok e, w')) :
    w.faults.brokenReads = none ∧ m.isDirectory source ≠ true ∧ ∃ text records,
      m.pathMap (segments source) = some (.file text)
        ∧ ¬m.pathMap.Closed (segments dest)
        ∧ w' = w.stored (m.replacing dest text) records := by
  rw [copy, outcome_bind, outcome_isDirectory hw] at h
  by_cases hdir : m.isDirectory source = true
  · simp [hdir] at h
  · cases hb : w.faults.brokenReads with
    | some cause => simp [hdir, read, outcome_bind, hb] at h
    | none =>
        cases hr : m.read source with
        | error f => simp [hdir, outcome_bind, outcome_read hw hb, hr] at h
        | ok text =>
            simp only [if_neg hdir, outcome_bind, outcome_read hw hb, hr] at h
            cases hc : (m.createFile dest text).1 with
            | error f => simp [outcome_createFile_error hw hc] at h
            | ok e' =>
                obtain ⟨hopen, -, hsnd⟩ := createFile_snd_of_ok hm hc
                obtain ⟨records, ho⟩ := outcome_createFile_ok hw hc
                rw [ho, hsnd] at h
                exact ⟨rfl, hdir, text, records, read_eq_ok.mp hr, hopen, (congrArg (·.2) h).symm⟩

theorem deleteFile_eq_error (hw : w.backing = .memory m)
    (h : (deleteFile path).outcome w = (.error f, w')) : w' = w ∧ f.IsRefusal := by
  by_cases hf : w.faults.RefusesDeletion path
  · rw [outcome_deleteFile_refused hf] at h
    cases h
    exact ⟨rfl, .inr rfl⟩
  · rw [outcome_deleteFile hw hf] at h
    cases hr : m.deleteFile path with
    | ok m' => simp [hr] at h
    | error g =>
        rw [hr] at h
        cases h
        refine ⟨rfl, ?_⟩
        rw [Memory.deleteFile] at hr
        cases hread : m.read path with
        | ok text => simp [hread] at hr
        | error g =>
            obtain rfl : g = f := by simpa [hread] using hr
            exact read_eq_error hread

/-- A move that cannot delete its source puts the destination back. -/
theorem outcome_move_kept {w₁ w₂ : World} {e : StoreEntry} (hm : m.Tidy Path.IsSegment)
    (hw : w.backing = .memory m) (hne : source ≠ dest)
    (hcopy : (copy source dest).outcome w = (.ok e, w₁))
    (hdelete : (deleteFile source).outcome w₁ = (.error f, w₂)) :
    (move source dest).outcome w
      = (rollBack dest (m.read dest).toOption >>= fun _ => throw (.sourceKept source f)).outcome
        w₂ := by
  obtain ⟨hreads, hdir, text, records, -, -, rfl⟩ := copy_eq_ok hm hw hcopy
  have hf := (deleteFile_eq_error rfl hdelete).2.isExpected
  rw [outcome_move hw hreads hdir hne, transfer, outcome_bind_ok hcopy, outcome_tryCatch, hdelete]
  simp only [hf, if_true]

/-- The former content of a destination is not refused for the quota when a move puts it back. -/
theorem write_former_fits {w₁ w₂ : World} {e : StoreEntry} {former : Text}
    (hm : m.Tidy Path.IsSegment) (hq : (m.used : Int) ≤ m.quota) (hw : w.backing = .memory m)
    (hformer : m.pathMap (segments dest) = some (.file former))
    (hcopy : (copy source dest).outcome w = (.ok e, w₁))
    (hdelete : (deleteFile source).outcome w₁ = (.error f, w₂)) (projected quota : Int) :
    ((write dest former).outcome w₂).1 ≠ .error (.quotaExceeded projected quota) := by
  obtain ⟨-, -, text, records, -, hopen, rfl⟩ := copy_eq_ok hm hw hcopy
  obtain ⟨rfl, -⟩ := deleteFile_eq_error rfl hdelete
  -- With the former content back, the store holds as many bytes as before the move.
  intro hfull
  by_cases hf : dest ∈ w.faults.unwritable
  · have hrefused : (write dest former).outcome (w.stored (m.replacing dest text) records)
        = (.error (.readOnly dest), w.stored (m.replacing dest text) records) := by
      simp [write, outcome_bind, outcome_get, World.stored, hf]
    rw [hrefused] at hfull
    cases hfull
  · have hfile : (m.replacing dest text).pathMap.IsFile (segments dest) :=
      ⟨text, by simp [pathMap_replacing hm hopen, PathMap.create, PathMap.bindFile]⟩
    have hback := replaces_write (w := w.stored (m.replacing dest text) records)
      (replacing_tidy hm) rfl hfile hf former
    rw [Replaces, used_restored hm hformer, quota_replacing, if_neg (Int.not_lt.mpr hq)] at hback
    obtain ⟨⟨a, ha⟩, -⟩ := hback
    rw [ha] at hfull
    cases hfull

/-! ## The quota -/

/-- In every store that calls lead to, the bytes in use are those of all contents and within the
quota. A content that has a place is refused exactly when the store would be over its quota with it.
When a move cannot delete its source, the former content of its destination still fits. -/
theorem quota_exact (hm : m.Reached) (hq : 0 ≤ m.quota) (hw : w.backing = .memory m) :
    m.storageInfo.used
        = ((m.tree.contents.map fun text => (Text.encode text).length).sum : Nat)
      ∧ m.storageInfo.used ≤ m.quota
      ∧ (∀ path content, m.pathMap.IsFile (segments path) → path ∉ w.faults.unwritable →
          Replaces w m path content (write path content))
      ∧ (∀ path content, ¬m.pathMap.Closed (segments path) →
          Replaces w m path content (createFile path content))
      ∧ ∀ source dest former e f w₁ w₂, source ≠ dest → m.read dest = .ok former →
          (copy source dest).outcome w = (.ok e, w₁) →
          (deleteFile source).outcome w₁ = (.error f, w₂) →
          (move source dest).outcome w
              = (rollBack dest (some former) >>= fun _ => throw (.sourceKept source f)).outcome w₂
            ∧ ∀ projected quota,
              ((write dest former).outcome w₂).1 ≠ .error (.quotaExceeded projected quota) := by
  have hwithin : (m.used : Int) ≤ m.quota := hm.withinQuota.used_le hq
  refine ⟨congrArg Nat.cast m.used_eq_contents, hwithin, ?_, ?_, ?_⟩
  · intro path content hfile hf
    exact replaces_write hm.tidy hw hfile hf content
  · intro path content hopen
    exact replaces_createFile hm.tidy hw hopen content
  · intro source dest former e f w₁ w₂ hne hread hcopy hdelete
    have hmove := outcome_move_kept hm.tidy hw hne hcopy hdelete
    rw [hread] at hmove
    exact ⟨hmove, write_former_fits hm.tidy hwithin hw (read_eq_ok.mp hread) hcopy hdelete⟩

/-- A store that is full to its last byte. -/
def full : Memory :=
  { tree := .file ['a'] ['x'] (.file ['b'] ['ü'] .empty), quota := 3 }

theorem reached_full : full.Reached :=
  ((Memory.Reached.fresh 3).call (w := .ofMemory { quota := 3 } {} {}) (.createFile ['a'] ['x'])
    rfl rfl).call (w := .ofMemory { tree := .file ['a'] ['x'] .empty, quota := 3 } {} {})
    (.createFile ['b'] ['ü']) rfl rfl

/-- The full store where `a` cannot be deleted. -/
def fullSticky : World :=
  .ofMemory full { undeletable := [['a']] } {}

/-- A full store takes no longer content, and takes back what a move had replaced. -/
theorem quota_exact_full :
    full.storageInfo.used = 3
      ∧ ((write ['a'] ['ü']).outcome fullSticky).1 = .error (.quotaExceeded 4 3)
      ∧ ((createFile ['b'] ['y', 'z']).outcome fullSticky).2.backing
        = .memory { tree := .file ['a'] ['x'] (.file ['b'] ['y', 'z'] .empty), quota := 3 }
      ∧ ∃ w₁, ((copy ['a'] ['b']).outcome fullSticky).2 = w₁
        ∧ w₁.backing
          = .memory { tree := .file ['a'] ['x'] (.file ['b'] ['x'] .empty), quota := 3 }
        ∧ ∀ projected quota,
          ((write ['b'] ['ü']).outcome w₁).1 ≠ .error (.quotaExceeded projected quota) := by
  obtain ⟨-, -, hwrite, hcreate, hmove⟩ := quota_exact (w := fullSticky) reached_full
    (by decide) rfl
  have hfile : full.pathMap.IsFile (segments ['a']) := ⟨['x'], rfl⟩
  have hopen : ¬full.pathMap.Closed (segments ['b']) := not_closed_of_file ⟨['ü'], rfl⟩
  have hrefused := hwrite ['a'] ['ü'] hfile (by decide)
  have hdone := hcreate ['b'] ['y', 'z'] hopen
  refine ⟨rfl, hrefused, ?_, _, rfl, rfl, (hmove ['a'] ['b'] ['ü'] _ _ _ _ (by decide) rfl rfl rfl).2⟩
  obtain ⟨-, records, hstored⟩ := hdone
  rw [hstored]
  rfl

end Store

end PipeShell
