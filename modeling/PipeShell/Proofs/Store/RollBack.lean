import PipeShell.Proofs.Folder.Order
import PipeShell.Proofs.Store.Quota

/-!
# Moves that fail

A move completes or puts every file back. What a failed move leaves behind are directories on the way
to its destination, and nothing else, as long as a copy at the destination can be deleted again.
-/

namespace PipeShell

open PipeShell.Path (segments IsAbove)

namespace PathMap

variable {m : PathMap} {path : List Text} {text former : Text}

/-- Every binding is as before, and new are only directories above a path. -/
def KeptBut (path : List Text) (m m' : PathMap) : Prop :=
  ∀ q, m' q = m q ∨ m q = none ∧ m' q = some .directory ∧ IsAbove q path

theorem KeptBut.refl (path : List Text) (m : PathMap) : m.KeptBut path m :=
  fun _ => .inl rfl

theorem keptBut_makeDirectories (hne : path ≠ []) (m : PathMap) :
    m.KeptBut path (m.makeDirectories path.dropLast) := by
  intro q
  by_cases hq : q <+: path.dropLast ∧ m q = none
  · refine .inr ⟨hq.2, by simp [makeDirectories, hq], hq.1.trans (List.dropLast_prefix _), ?_⟩
    rintro rfl
    have hlen := hq.1.length_le
    have hpos := List.length_pos_iff.mpr hne
    simp only [List.length_dropLast] at hlen
    omega
  · exact .inl (by simp [makeDirectories, hq])

theorem unbind_create (hne : path ≠ []) (h : m path = none) :
    (m.create path text).unbind path = m.makeDirectories path.dropLast := by
  funext q
  by_cases hq : q = path
  · subst hq
    simp [unbind, makeDirectories_dropLast hne, h]
  · simp [unbind, create, bindFile, hq]

theorem PrefixClosed.create_of_file (hc : m.PrefixClosed) (h : m path = some (.file former)) :
    m.create path text = m.bindFile path text := by
  rw [create, hc.makeDirectories_of_directory (hc.above_file h)]

theorem bindFile_bindFile (h : m path = some (.file former)) :
    (m.bindFile path text).bindFile path former = m := by
  funext q
  by_cases hq : q = path
  · simp [bindFile, hq, h]
  · simp [bindFile, hq]

end PathMap

namespace Memory

variable {m : Memory} {path text former : Text}

/-- Replacing a content and putting the former one back changes nothing. -/
theorem pathMap_restored (hm : m.Tidy Path.IsSegment)
    (hformer : m.pathMap (segments path) = some (.file former)) :
    ((m.replacing path text).replacing path former).pathMap = m.pathMap := by
  have hput : (m.replacing path text).pathMap = m.pathMap.bindFile (segments path) text := by
    rw [pathMap_replacing hm (not_closed_of_file ⟨former, hformer⟩),
      m.prefixClosed_pathMap.create_of_file hformer]
  have hfile : (m.replacing path text).pathMap (segments path) = some (.file text) := by
    simp [hput, PathMap.bindFile]
  rw [pathMap_replacing (replacing_tidy hm) (not_closed_of_file ⟨text, hfile⟩),
    (prefixClosed_pathMap _).create_of_file hfile, hput, PathMap.bindFile_bindFile hformer]

theorem keptBut_createFile_error (hm : m.Tidy Path.IsSegment) {f : Failure}
    (h : (m.createFile path text).1 = .error f) :
    m.pathMap.KeptBut (segments path) (m.createFile path text).2.pathMap := by
  rcases createFile_snd_of_kind hm h with ⟨-, hopen, hsnd⟩ | ⟨-, hsnd⟩
  · rw [hsnd, pathMap_prepared hm hopen]
    exact PathMap.keptBut_makeDirectories (segments_ne_nil_of_open hopen) _
  · rw [hsnd]
    exact .refl _ _

end Memory

namespace Store

open PipeShell.Action Memory

variable {w w' : World} {m : Memory} {source dest text : Text} {f : Failure}

theorem copy_eq_error (hm : m.Tidy Path.IsSegment) (hw : w.backing = .memory m)
    (hreads : w.faults.brokenReads = none) (h : (copy source dest).outcome w = (.error f, w')) :
    ∃ m', w'.backing = .memory m' ∧ m.pathMap.KeptBut (segments dest) m'.pathMap := by
  rw [copy, outcome_bind, outcome_isDirectory hw] at h
  by_cases hdir : m.isDirectory source = true
  · obtain ⟨-, rfl⟩ : Failure.directoryCopy source = f ∧ w = w' := by simpa [hdir] using h
    exact ⟨m, hw, .refl _ _⟩
  · cases hr : m.read source with
    | error g =>
        obtain ⟨-, rfl⟩ : g = f ∧ w = w' := by
          simpa [hdir, outcome_bind, outcome_read hw hreads, hr] using h
        exact ⟨m, hw, .refl _ _⟩
    | ok text =>
        simp only [if_neg hdir, outcome_bind, outcome_read hw hreads, hr] at h
        cases hc : (m.createFile dest text).1 with
        | ok e =>
            obtain ⟨records, ho⟩ := outcome_createFile_ok hw hc
            simp [ho] at h
        | error g =>
            rw [outcome_createFile_error hw hc] at h
            cases h
            exact ⟨_, rfl, keptBut_createFile_error hm hc⟩

/-! ## Rolling back -/

theorem outcome_note_stored (hw : w.backing = .memory m) (level : LogLevel) (source : LogSource)
    (message : Text) :
    (World.note level source message).outcome w
      = (.ok (), w.stored m [⟨level, source, message⟩]) := by
  rw [outcome_note, World.stored, ← hw]

/-- A new copy is deleted when it can be; that it cannot is only noted. -/
theorem outcome_rollBack_none (hm : m.Tidy Path.IsSegment) (hw : w.backing = .memory m)
    (hfile : m.pathMap.IsFile (segments dest)) :
    ∃ m' records, (rollBack dest none).outcome w = (.ok (), w.stored m' records)
      ∧ (¬w.faults.RefusesDeletion dest → m'.pathMap = m.pathMap.unbind (segments dest)) := by
  by_cases hrefused : w.faults.RefusesDeletion dest
  · simp only [rollBack, outcome_tryCatch, outcome_deleteFile_refused hrefused]
    exact ⟨m, _, outcome_note_stored hw _ _ _, fun h => absurd hrefused h⟩
  · have he := deleteFile_ends hm (Path.isSegment_segments dest)
    cases hr : m.deleteFile dest with
    | error f =>
        rw [hr] at he
        exact absurd hfile he.1
    | ok m' =>
        rw [hr] at he
        simp only [rollBack, outcome_tryCatch, outcome_deleteFile hw hrefused, hr]
        exact ⟨m', _, rfl, fun _ => he.2.1⟩

theorem outcome_rollBack_some (hm : m.Tidy Path.IsSegment) (hw : w.backing = .memory m)
    (hwrites : w.faults.unwritable = []) (hfile : m.pathMap.IsFile (segments dest))
    {former : Text} (hfits : ((m.replacing dest former).used : Int) ≤ m.quota) :
    ∃ records, (rollBack dest (some former)).outcome w
      = (.ok (), w.stored (m.replacing dest former) records) := by
  have hback := replaces_write hm hw hfile (by simp [hwrites]) former
  rw [Replaces, if_neg (Int.not_lt.mpr hfits)] at hback
  obtain ⟨⟨a, ha⟩, records, hstored⟩ := hback
  have ho : (write dest former).outcome w = (.ok a, w.stored (m.replacing dest former) records) :=
    Prod.ext ha hstored
  simp only [rollBack, outcome_tryCatch, ho]
  exact ⟨records, rfl⟩

/-- Rolling a copy back succeeds, and puts everything back but for new directories. -/
theorem rollBack_restores (hm : m.Tidy Path.IsSegment) (hq : (m.used : Int) ≤ m.quota)
    (hwrites : w.faults.unwritable = []) (hopen : ¬m.pathMap.Closed (segments dest))
    (text : Text) (records : List LogRecord) :
    ∃ m' records', (rollBack dest (m.read dest).toOption).outcome
          (w.stored (m.replacing dest text) records) = (.ok (), w.stored m' records')
      ∧ (¬w.faults.RefusesDeletion dest → m.pathMap.KeptBut (segments dest) m'.pathMap) := by
  have hcopied := pathMap_replacing hm hopen text
  have hfile : (m.replacing dest text).pathMap.IsFile (segments dest) :=
    ⟨text, by simp [hcopied, PathMap.create, PathMap.bindFile]⟩
  -- What the destination held decides how it is put back: a new copy is deleted, a former content
  -- is written over it.
  cases hb : m.pathMap (segments dest) with
  | none =>
      have hr : (m.read dest).toOption = none := by
        refine toOption_read_of_not_file ?_
        rintro ⟨_, h⟩
        simp [hb] at h
      obtain ⟨m', more, ho, hmap⟩ := outcome_rollBack_none
        (w := w.stored (m.replacing dest text) records) (replacing_tidy hm) rfl hfile
      refine ⟨m', records ++ more, by rw [hr, ho, stored_stored], fun hd => ?_⟩
      rw [hmap hd, hcopied, PathMap.unbind_create (segments_ne_nil_of_open hopen) hb]
      exact PathMap.keptBut_makeDirectories (segments_ne_nil_of_open hopen) _
  | some b =>
      cases b with
      | directory => exact absurd (.inl hb) hopen
      | file former =>
          have hfits : (((m.replacing dest text).replacing dest former).used : Int) ≤ m.quota := by
            rwa [used_restored hm hb]
          obtain ⟨more, ho⟩ := outcome_rollBack_some
            (w := w.stored (m.replacing dest text) records) (replacing_tidy hm) rfl hwrites hfile
            hfits
          refine ⟨(m.replacing dest text).replacing dest former, records ++ more, ?_, fun _ => ?_⟩
          · rw [read_eq_ok.mpr hb, ← stored_stored]
            exact ho
          · rw [pathMap_restored hm hb]
            exact .refl _ _

/-! ## Moving -/

/-- A move that can delete its source completes. -/
theorem move_completes (hm : m.Tidy Path.IsSegment) (hw : w.backing = .memory m)
    (hne : segments source ≠ segments dest) {e : StoreEntry} {w₁ : World}
    (hcopy : (copy source dest).outcome w = (.ok e, w₁))
    (hdelete : ¬w.faults.RefusesDeletion source) :
    ∃ m' records, (move source dest).outcome w = (.ok (), w.stored m' records)
      ∧ m.pathMap.Moved m'.pathMap (segments source) (segments dest)
      ∧ m'.pathMap (segments source) = none := by
  obtain ⟨hreads, hdir, text, records, hsource, hopen, rfl⟩ := copy_eq_ok hm hw hcopy
  have hcopied : (m.replacing dest text).pathMap
      = m.pathMap.copy (segments source) (segments dest) := by
    rw [pathMap_replacing hm hopen, PathMap.copy, hsource]
  have hfile : m.pathMap.IsFile (segments source) := ⟨text, hsource⟩
  -- The copy leaves its source a file, so it can be deleted.
  have he := deleteFile_ends (replacing_tidy hm) (Path.isSegment_segments source)
    (m := m.replacing dest text)
  have ho := outcome_deleteFile (w := w.stored (m.replacing dest text) records) rfl hdelete
  cases hr : (m.replacing dest text).deleteFile source with
  | error f =>
      rw [hr, hcopied] at he
      exact absurd (hfile.copy _) he.1
  | ok m' =>
      rw [hr] at he ho
      obtain ⟨-, hmap, -⟩ := he
      have hpaths : source ≠ dest := fun h => hne (congrArg segments h)
      obtain ⟨more, hdeleted⟩ : ∃ more, (deleteFile source).outcome
          (w.stored (m.replacing dest text) records) = (.ok (), w.stored m' more) :=
        ⟨_, ho.trans (Prod.ext rfl (stored_stored _ _ _ _ _))⟩
      refine ⟨m', more, ?_, ?_, ?_⟩
      · rw [outcome_move hw hreads hdir hpaths, transfer, outcome_bind_ok hcopy, outcome_tryCatch,
          hdeleted]
      · rw [hmap, hcopied]
        exact (PathMap.moved_copy_unbind hfile).mpr hne
      · simp [hmap, PathMap.unbind]

/-- A move that cannot delete its source fails for that, whether or not a copy can be deleted. -/
theorem move_restores (hm : m.Tidy Path.IsSegment) (hq : (m.used : Int) ≤ m.quota)
    (hw : w.backing = .memory m) (hwrites : w.faults.unwritable = [])
    (hne : source ≠ dest) {e : StoreEntry} {w₁ : World}
    (hcopy : (copy source dest).outcome w = (.ok e, w₁))
    (hdelete : w.faults.RefusesDeletion source) :
    ∃ m' records, (move source dest).outcome w
        = (.error (.sourceKept source (.permissionDenied source)), w.stored m' records)
      ∧ (¬w.faults.RefusesDeletion dest → m.pathMap.KeptBut (segments dest) m'.pathMap) := by
  obtain ⟨-, -, text, records, -, hopen, rfl⟩ := copy_eq_ok hm hw hcopy
  have hkept := outcome_move_kept hm hw hne hcopy
    (outcome_deleteFile_refused (w := w.stored (m.replacing dest text) records) hdelete)
  obtain ⟨m', records', ho, hmap⟩ := rollBack_restores hm hq hwrites hopen text records
  exact ⟨m', records', by rw [hkept, outcome_bind_ok ho, outcome_throw], hmap⟩

theorem move_eq_of_copy_error (hw : w.backing = .memory m) (hreads : w.faults.brokenReads = none)
    (hne : source ≠ dest) (hdir : m.isDirectory source ≠ true)
    (hcopy : (copy source dest).outcome w = (.error f, w')) :
    (move source dest).outcome w = (.error f, w') := by
  rw [outcome_move hw hreads hdir hne, transfer, outcome_bind_error hcopy]

/-- A move between different files completes or puts every file back, whichever deletions the store
refuses: when it returns, the source is gone and its content at the destination; when it fails,
nothing has changed but for new directories above the destination, unless the copy cannot be deleted
there. A source that cannot be deleted makes it fail in either case. -/
theorem move_completes_or_restores (hm : m.Tidy Path.IsSegment) (hq : (m.used : Int) ≤ m.quota)
    (hw : w.backing = .memory m) (hreads : w.faults.brokenReads = none)
    (hwrites : w.faults.unwritable = []) (hne : segments source ≠ segments dest) :
    ∃ m', ((move source dest).outcome w).2.backing = .memory m'
      ∧ (((move source dest).outcome w).1 = .ok () →
          m.pathMap.Moved m'.pathMap (segments source) (segments dest)
            ∧ m'.pathMap (segments source) = none)
      ∧ (∀ f, ((move source dest).outcome w).1 = .error f → ¬w.faults.RefusesDeletion dest →
          m.pathMap.KeptBut (segments dest) m'.pathMap)
      ∧ ∀ e w₁, (copy source dest).outcome w = (.ok e, w₁) → w.faults.RefusesDeletion source →
          ∃ f, ((move source dest).outcome w).1 = .error f ∧ f.kind = .invalidOperation
            ∧ f = .sourceKept source (.permissionDenied source) := by
  have hpaths : source ≠ dest := fun h => hne (congrArg segments h)
  by_cases hdir : m.isDirectory source = true
  · have ho : (move source dest).outcome w = (.error (.directoryMove source), w) := by
      simp [move, outcome_bind, outcome_isDirectory hw, hdir]
    have hcopy : (copy source dest).outcome w = (.error (.directoryCopy source), w) := by
      simp [copy, outcome_bind, outcome_isDirectory hw, hdir]
    rw [ho]
    refine ⟨m, hw, ?_, fun _ _ _ => .refl _ _, ?_⟩
    · intro h
      cases h
    · intro e w₁ h
      rw [hcopy] at h
      cases h
  · cases hc : (copy source dest).outcome w with
    | mk r w₁ =>
        cases r with
        | error f =>
            obtain ⟨m', hback, hkept⟩ := copy_eq_error hm hw hreads hc
            rw [move_eq_of_copy_error hw hreads hpaths hdir hc]
            refine ⟨m', hback, ?_, fun _ _ _ => hkept, ?_⟩
            · intro h
              cases h
            · intro _ _ h
              cases h
        | ok e =>
            by_cases hdelete : w.faults.RefusesDeletion source
            · obtain ⟨m', records, ho, hkept⟩ :=
                move_restores hm hq hw hwrites hpaths hc hdelete
              rw [ho]
              refine ⟨m', rfl, ?_, fun _ _ => hkept, fun _ _ _ _ => ⟨_, rfl, rfl, rfl⟩⟩
              intro h
              cases h
            · obtain ⟨m', records, ho, hmoved⟩ := move_completes hm hw hne hc hdelete
              rw [ho]
              refine ⟨m', rfl, fun _ => hmoved, ?_, fun _ _ _ h => absurd h hdelete⟩
              intro _ h
              cases h

/-- The move in the full store fails and puts the destination back to the last byte. -/
theorem move_completes_or_restores_full :
    ∃ m', ((move ['a'] ['b']).outcome fullSticky).2.backing = .memory m'
      ∧ m'.pathMap [['a']] = some (.file ['x']) ∧ m'.pathMap [['b']] = some (.file ['ü'])
      ∧ ∃ f, ((move ['a'] ['b']).outcome fullSticky).1 = .error f
        ∧ f.kind = .invalidOperation := by
  obtain ⟨m', hback, -, hkept, hfailed⟩ := move_completes_or_restores (w := fullSticky)
    reached_full.tidy (by decide) rfl rfl rfl (show segments ['a'] ≠ segments ['b'] by decide)
  obtain ⟨f, hf, hkind, -⟩ := hfailed _ _ rfl rfl
  have hsame := hkept f hf (by decide)
  refine ⟨m', hback, ?_, ?_, f, hf, hkind⟩
  · rcases hsame [['a']] with h | ⟨h, -⟩
    · exact h
    · cases h
  · rcases hsame [['b']] with h | ⟨h, -⟩
    · exact h
    · cases h

end Store

end PipeShell
