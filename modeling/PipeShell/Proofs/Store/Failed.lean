import PipeShell.Proofs.Store.Listed
import PipeShell.Proofs.Store.RollBack

/-!
# Calls that fail

A call that fails leaves the store as it was, with one exception: a file that does not fit into the
quota leaves behind the directories that were made for it. Every file keeps its content even then.
-/

namespace PipeShell

open PipeShell.Path (segments)

namespace Memory

variable {m : Memory} {path content : Text} {f : Failure}

theorem prepared_of_directory (h : m.pathMap (segments path).dropLast = some .directory) :
    m.prepared path = m := by
  rw [prepared, Folder.ensure_of_directory h]

/-- The directory above a path where a file can be created is there or missing. -/
theorem holds_parent_iff (hopen : ¬m.pathMap.Closed (segments path)) :
    m.holds (Path.parentAndName path).1 = true
      ↔ m.pathMap (segments path).dropLast = some .directory := by
  rw [holds_iff, Path.segments_parent]
  constructor
  · intro hheld
    cases hb : m.pathMap (segments path).dropLast with
    | none => exact absurd hb hheld
    | some b =>
        cases b with
        | directory => rfl
        | file text => exact absurd (.inr ⟨_, List.prefix_rfl, text, hb⟩) hopen
  · intro hdir
    simp [hdir]

theorem read_prepared (hm : m.Tidy Path.IsSegment) (hopen : ¬m.pathMap.Closed (segments path))
    (other text : Text) : (m.prepared path).read other = .ok text ↔ m.read other = .ok text := by
  rw [read_eq_ok, read_eq_ok, pathMap_prepared hm hopen, PathMap.makeDirectories_eq_file]

theorem list_root (m : Memory) : m.list [] = .ok (m.tree.entries.map listed) :=
  list_of_folder (Folder.node?_nil m.tree)

theorem holds_eq_of_list_eq {m' : Memory} (hm : m.Tidy Path.IsSegment)
    (hm' : m'.Tidy Path.IsSegment) (h : m'.list [] = m.list []) (path : Text) :
    m'.holds path = m.holds path := by
  have hlist : m'.tree.entries.map listed = m.tree.entries.map listed := by
    rw [list_root, list_root] at h
    exact Except.ok.inj h
  rw [Bool.eq_iff_iff, (agrees_listed hm').holds, hlist, (agrees_listed hm).holds]

theorem list_prepared_ne (hm : m.Tidy Path.IsSegment) (hopen : ¬m.pathMap.Closed (segments path))
    (hmissing : m.holds (Path.parentAndName path).1 = false) :
    (m.prepared path).list [] ≠ m.list [] := by
  intro h
  have hheld := holds_eq_of_list_eq hm (prepared_tidy hm) h (Path.parentAndName path).1
  rw [hmissing, ← Bool.not_eq_true, holds_iff, Path.segments_parent,
    pathMap_prepared_above hm hopen] at hheld
  simp at hheld

end Memory

namespace Store

open PipeShell.Action Memory

variable {w w' : World} {m : Memory} {path source dest content : Text} {f : Failure}

theorem write_eq_error (hw : w.backing = .memory m)
    (h : (write path content).outcome w = (.error f, w')) : w' = w := by
  by_cases hf : path ∈ w.faults.unwritable
  · have ho : (write path content).outcome w = (.error (.readOnly path), w) := by
      simp [write, outcome_bind, outcome_get, hf]
    rw [ho] at h
    exact (congrArg Prod.snd h).symm
  · cases hr : m.write path content with
    | error g =>
        rw [outcome_write_error hw hf hr] at h
        exact (congrArg Prod.snd h).symm
    | ok m' =>
        obtain ⟨records, ho⟩ := outcome_write_ok hw hf hr
        simp [ho] at h

theorem createDirectory_eq_error (hw : w.backing = .memory m)
    (h : (createDirectory path).outcome w = (.error f, w')) : w' = w := by
  cases hr : m.createDirectory path with
  | error g =>
      rw [outcome_createDirectory_error hw hr] at h
      exact (congrArg Prod.snd h).symm
  | ok made => simp [createDirectory, outcome_bind, hw, hr, Except.map] at h

theorem deleteDirectory_eq_error (hw : w.backing = .memory m)
    (h : (deleteDirectory path).outcome w = (.error f, w')) : w' = w := by
  rw [outcome_deleteDirectory hw] at h
  cases hr : m.deleteDirectory path with
  | error g =>
      rw [hr] at h
      exact (congrArg Prod.snd h).symm
  | ok m' => simp [hr] at h

theorem createFile_eq_error (hm : m.Tidy Path.IsSegment) (hw : w.backing = .memory m)
    (h : (createFile path content).outcome w = (.error f, w')) :
    f.kind = .quotaExceeded ∧ ¬m.pathMap.Closed (segments path)
        ∧ w'.backing = .memory (m.prepared path)
      ∨ f.kind ≠ .quotaExceeded ∧ w'.backing = .memory m := by
  cases hr : (m.createFile path content).1 with
  | error g =>
      rw [outcome_createFile_error hw hr] at h
      cases h
      rcases createFile_snd_of_kind hm hr with ⟨hf, hopen, hsnd⟩ | ⟨hf, hsnd⟩
      · exact .inl ⟨hf, hopen, congrArg _ hsnd⟩
      · exact .inr ⟨hf, congrArg _ hsnd⟩
  | ok e =>
      obtain ⟨records, ho⟩ := outcome_createFile_ok hw hr
      simp [ho] at h

theorem kind_of_read_error (hw : w.backing = .memory m)
    (h : ((read path).outcome w).1 = .error f) : f.kind ≠ .quotaExceeded := by
  cases hb : w.faults.brokenReads with
  | some cause =>
      simp only [read, outcome_bind, outcome_get, hb, outcome_throw] at h
      cases h
      simp [Failure.kind]
  | none =>
      rw [outcome_read hw hb] at h
      rcases read_eq_error h with hf | hf <;> simp [hf]

theorem copy_eq_error_of_kind (hm : m.Tidy Path.IsSegment) (hw : w.backing = .memory m)
    (h : (copy source dest).outcome w = (.error f, w')) :
    f.kind = .quotaExceeded ∧ ¬m.pathMap.Closed (segments dest)
        ∧ w'.backing = .memory (m.prepared dest)
      ∨ f.kind ≠ .quotaExceeded ∧ w'.backing = .memory m := by
  rw [copy, outcome_bind, outcome_isDirectory hw] at h
  by_cases hdir : m.isDirectory source = true
  · obtain ⟨rfl, rfl⟩ : Failure.directoryCopy source = f ∧ w = w' := by simpa [hdir] using h
    exact .inr ⟨by simp [Failure.kind], hw⟩
  · simp only [if_neg hdir, outcome_bind] at h
    have hsnd := outcome_read_snd source w
    cases hread : (read source).outcome w with
    | mk r w₁ =>
        rw [hread] at h hsnd
        obtain rfl : w₁ = w := hsnd
        cases r with
        | ok text => exact createFile_eq_error hm hw h
        | error g =>
            cases h
            exact .inr ⟨kind_of_read_error hw (congrArg Prod.fst hread), hw⟩

end Store

/-! ## Calls -/

namespace Call

open PipeShell.Action Memory

variable {w w' : World} {m : Memory} {f : Failure}

/-- The path that a call creates a file at. -/
def created? : Call → Option Text
  | createFile path _ => some path
  | copy _ dest => some dest
  | _ => none

/-- The call fails for want of room after it has made directories for its file. -/
def Strands (c : Call) (m : Memory) (f : Failure) : Prop :=
  f.kind = .quotaExceeded
    ∧ ∃ path, c.created? = some path ∧ m.holds (Path.parentAndName path).1 = false

/-- Everything but a file for which there is no room leaves the store as it is when it fails. -/
theorem backing_of_error (c : Call) (hc : ∀ source dest, c ≠ .move source dest)
    (hm : m.Tidy Path.IsSegment) (hw : w.backing = .memory m)
    (h : c.run.outcome w = (.error f, w')) :
    (∃ path, c.created? = some path ∧ f.kind = .quotaExceeded
        ∧ ¬m.pathMap.Closed (segments path) ∧ w'.backing = .memory (m.prepared path))
      ∨ (c.created? = none ∨ f.kind ≠ .quotaExceeded) ∧ w'.backing = .memory m := by
  have hrun {α : Type} {x : Action World α} {answer : α → Option Text}
      (h : (answer <$> x).outcome w = (.error f, w')) : x.outcome w = (.error f, w') := by
    rw [outcome_map] at h
    generalize x.outcome w = out at h ⊢
    obtain ⟨r, t⟩ := out
    cases r with
    | ok a => simp [Except.map] at h
    | error g => simpa [Except.map] using h
  have hsame {w' : World} (h : w' = w) : w'.backing = .memory m := by rw [h, hw]
  cases c with
  | read path =>
      refine .inr ⟨.inl rfl, hsame ?_⟩
      rw [← Store.outcome_read_snd path w, hrun h]
  | write path content => exact .inr ⟨.inl rfl, hsame (Store.write_eq_error hw (hrun h))⟩
  | createFile path content =>
      rcases Store.createFile_eq_error hm hw (hrun h) with ⟨hf, hopen, hback⟩ | ⟨hf, hback⟩
      · exact .inl ⟨path, rfl, hf, hopen, hback⟩
      · exact .inr ⟨.inr hf, hback⟩
  | createDirectory path =>
      exact .inr ⟨.inl rfl, hsame (Store.createDirectory_eq_error hw (hrun h))⟩
  | deleteFile path => exact .inr ⟨.inl rfl, hsame (Store.deleteFile_eq_error hw (hrun h)).1⟩
  | deleteDirectory path =>
      exact .inr ⟨.inl rfl, hsame (Store.deleteDirectory_eq_error hw (hrun h))⟩
  | copy source dest =>
      rcases Store.copy_eq_error_of_kind hm hw (hrun h) with ⟨hf, hopen, hback⟩ | ⟨hf, hback⟩
      · exact .inl ⟨dest, rfl, hf, hopen, hback⟩
      · exact .inr ⟨.inr hf, hback⟩
  | move source dest => exact absurd rfl (hc source dest)
  | clear =>
      have ho := hrun h
      simp [Store.clear, World.change, outcome, hw] at ho

/-- A call other than a move that fails keeps the content of every file. It leaves the store as it
was unless it is a file for which there is no room in a directory that was missing: then it leaves
an entry for that directory. -/
theorem failed_changes_iff (c : Call) (hc : ∀ source dest, c ≠ .move source dest)
    (hm : m.Reached) (hw : w.backing = .memory m) (h : c.run.outcome w = (.error f, w')) :
    ∃ m', w'.backing = .memory m'
      ∧ (∀ path text, m'.read path = .ok text ↔ m.read path = .ok text)
      ∧ (m'.list [] = m.list [] ↔ ¬c.Strands m f)
      ∧ (m' = m ↔ ¬c.Strands m f) := by
  rcases backing_of_error c hc hm.tidy hw h with ⟨path, hpath, hf, hopen, hback⟩ | ⟨hkind, hback⟩
  · refine ⟨m.prepared path, hback, read_prepared hm.tidy hopen, ?_⟩
    cases hheld : m.holds (Path.parentAndName path).1 with
    | true =>
        have hkept : ¬c.Strands m f := by
          rintro ⟨-, other, hother, hmissing⟩
          obtain rfl := Option.some.inj (hpath.symm.trans hother)
          simp [hheld] at hmissing
        rw [prepared_of_directory ((holds_parent_iff hopen).mp hheld)]
        simp [hkept]
    | false =>
        have hstrands : c.Strands m f := ⟨hf, path, hpath, hheld⟩
        have hlist := list_prepared_ne hm.tidy hopen hheld
        have hne : m.prepared path ≠ m := fun heq => hlist (by rw [heq])
        simp [hstrands, hlist, hne]
  · have hkept : ¬c.Strands m f := by
      rintro ⟨hf, path, hpath, -⟩
      rcases hkind with hnone | hkind
      · simp [hpath] at hnone
      · exact hkind hf
    exact ⟨m, hback, fun _ _ => Iff.rfl, by simp [hkept], by simp [hkept]⟩

/-- The full store takes no further file at its root, and is the same as before. -/
theorem failed_changes_iff_full :
    ((createFile ['c'] ['y']).run.outcome (.ofMemory Store.full {} {})).1 = .error (.quotaExceeded 4 3)
      ∧ ∃ m', ((createFile ['c'] ['y']).run.outcome (.ofMemory Store.full {} {})).2.backing = .memory m'
        ∧ m' = Store.full := by
  obtain ⟨m', hback, -, -, hsame⟩ := failed_changes_iff (w := .ofMemory Store.full {} {})
    (createFile ['c'] ['y']) (fun _ _ => nofun) Store.reached_full rfl rfl
  refine ⟨rfl, m', hback, hsame.mpr ?_⟩
  rintro ⟨-, path, hpath, hmissing⟩
  obtain rfl := Option.some.inj hpath
  exact absurd hmissing (by decide)

/-- A file that does not fit leaves the directory that was made for it. -/
theorem failed_leaves_directory :
    ∃ w' m', (createFile ['d', '/', 'f'] ['x']).run.outcome (.ofMemory { quota := 0 } {} {})
        = (.error (.quotaExceeded 1 0), w')
      ∧ w'.backing = .memory m'
      ∧ m'.list [] = .ok [⟨['d'], ['d'], true⟩]
      ∧ Memory.list { quota := 0 } [] = .ok [] :=
  ⟨_, _, rfl, rfl, rfl, rfl⟩

end Call

end PipeShell
