import PipeShell.Proofs.Store.Memory
import PipeShell.Proofs.Store.Tie
import PipeShell.Store.Basic

/-!
# Operations on a store in memory

How the operations of a store end when it is in memory and has no faults. Apart from the store and
the log they leave the world as it is.
-/

namespace PipeShell

namespace Faults

/-- The store does not delete the file at the path, whether there is one or not. -/
def RefusesDeletion (faults : Faults) (path : Text) : Prop :=
  (faults.allUndeletable || faults.undeletable.contains path) = true

instance (faults : Faults) (path : Text) : Decidable (faults.RefusesDeletion path) :=
  inferInstanceAs (Decidable (_ = true))

theorem not_refusesDeletion {faults : Faults} (hf : faults = {}) (path : Text) :
    ¬faults.RefusesDeletion path := by
  simp [hf, RefusesDeletion]

end Faults

/-- The world with another store in memory and more records. -/
def World.stored (w : World) (m : Memory) (records : List LogRecord) : World :=
  { w with backing := .memory m, log := w.log ++ records }

namespace Store

open PipeShell.Action

variable {α : Type} {w : World} {m : Memory}

/-- The operation ends as the map of the store in memory says, and does no more to the world than to
put another store there and to add to the log. -/
def Settles (w : World) (m : Memory) (refused : Prop) (update : PathMap) (answer : α → Prop)
    (x : Action World α) : Prop :=
  ∃ m' records, (x.outcome w).2 = w.stored m' records ∧ m'.Tidy Path.IsSegment
    ∧ m.Ends refused update answer (x.outcome w).1 m'

theorem stored_self (hw : w.backing = .memory m) : w.stored m [] = w := by
  cases w
  simp_all [World.stored]

theorem stored_stored (w : World) (m m' : Memory) (records records' : List LogRecord) :
    (w.stored m records).stored m' records' = w.stored m' (records ++ records') := by
  simp [World.stored]

/-! ## Questions -/

theorem outcome_isDirectory (hw : w.backing = .memory m) (path : Text) :
    (isDirectory path).outcome w = (.ok (m.isDirectory path), w) := by
  simp [isDirectory, World.ask, outcome, hw]

theorem outcome_holds (hw : w.backing = .memory m) (path : Text) :
    (holds path).outcome w = (.ok (m.holds path), w) := by
  simp [holds, World.ask, outcome, hw]

theorem outcome_list (hw : w.backing = .memory m) (path : Text) :
    (list path).outcome w = (m.list path, w) := by
  simp [list, World.ask, outcome, hw]

theorem outcome_read_snd (path : Text) (w : World) : ((read path).outcome w).2 = w := by
  simp only [read, outcome_bind, outcome_get]
  split
  · rfl
  · simp only [World.ask, outcome]
    split <;> rfl

theorem unbroken_of_faultless (hf : w.faults = {}) : w.faults.brokenReads = none := by
  rw [hf]

theorem outcome_read (hw : w.backing = .memory m) (hf : w.faults.brokenReads = none) (path : Text) :
    (read path).outcome w = (m.read path, w) := by
  simp only [read, outcome_bind, outcome_get, hf]
  simp [World.ask, outcome, hw]

/-! ## Changes -/

theorem settles_of_refusal {refused : Prop} {update : PathMap} {answer : α → Prop}
    {x : Action World α} {f : Failure} (hm : m.Tidy Path.IsSegment) (hw : w.backing = .memory m)
    (ho : x.outcome w = (.error f, w)) (hr : refused) (hf : f.IsRefusal) :
    Settles w m refused update answer x := by
  refine ⟨m, [], ?_, hm, ?_⟩
  · rw [ho, stored_self hw]
  · rw [ho]
    exact .refused hr hf (PathMap.Within.refl _)

theorem settles_read (hm : m.Tidy Path.IsSegment) (hw : w.backing = .memory m)
    (hf : w.faults = {}) (path : Text) :
    Settles w m (¬m.pathMap.IsFile (Path.segments path)) m.pathMap
      (fun text => m.pathMap (Path.segments path) = some (.file text)) (read path) := by
  have ho := outcome_read hw (unbroken_of_faultless hf) path
  cases hr : m.read path with
  | error f =>
      rw [hr] at ho
      exact settles_of_refusal hm hw ho (Memory.exists_read_eq_error.mp ⟨f, hr⟩)
        (Memory.read_eq_error hr)
  | ok text =>
      have hfile := Memory.read_eq_ok.mp hr
      refine ⟨m, [], ?_, hm, ?_⟩
      · rw [ho, stored_self hw]
      · rw [ho, hr]
        exact .done (fun h => h ⟨text, hfile⟩) rfl hfile

@[simp] theorem outcome_note (level : LogLevel) (source : LogSource) (message : Text) :
    (World.note level source message).outcome w
      = (.ok (), { w with log := w.log ++ [⟨level, source, message⟩] }) := rfl

theorem outcome_write_error (hw : w.backing = .memory m) {path content : Text}
    (hf : path ∉ w.faults.unwritable) {f : Failure} (hr : m.write path content = .error f) :
    (write path content).outcome w = (.error f, w) := by
  simp [write, outcome_bind, outcome_get, hf, hw, hr]

theorem outcome_write_ok (hw : w.backing = .memory m) {path content : Text}
    (hf : path ∉ w.faults.unwritable) {m' : Memory} (hr : m.write path content = .ok m') :
    ∃ records, (write path content).outcome w = (.ok (), w.stored m' records) := by
  have ho : (write path content).outcome w
      = (noteWritten content (Path.join [path])).outcome { w with backing := .memory m' } := by
    simp [write, outcome_bind, outcome_get, hf, hw, hr]
  exact ⟨_, ho⟩

theorem settles_write (hm : m.Tidy Path.IsSegment) (hw : w.backing = .memory m)
    (hf : w.faults = {}) (path content : Text) :
    Settles w m (¬m.pathMap.IsFile (Path.segments path))
      (m.pathMap.bindFile (Path.segments path) content) (fun _ => True) (write path content) := by
  have he := Memory.write_ends hm (Path.isSegment_segments path) content
  have hwritable : path ∉ w.faults.unwritable := by simp [hf]
  cases hr : m.write path content with
  | ok m' =>
      rw [hr] at he
      obtain ⟨hfile, hmap, htidy⟩ := he
      obtain ⟨records, ho⟩ := outcome_write_ok hw hwritable hr
      refine ⟨m', records, by rw [ho], htidy, ?_⟩
      rw [ho]
      exact .done (not_not_intro hfile) hmap trivial
  | error f =>
      have ho := outcome_write_error hw hwritable hr
      rw [hr] at he
      rcases he with ⟨hfile, hf⟩ | ⟨hfile, projected, rfl, hlt⟩
      · exact settles_of_refusal hm hw ho hfile hf
      · refine ⟨m, [], by rw [ho, stored_self hw], hm, ?_⟩
        rw [ho]
        exact .full (not_not_intro hfile) hlt (PathMap.Within.refl _)

theorem outcome_createFile (hw : w.backing = .memory m) (path content : Text) :
    (createFile path content).outcome w = match (m.createFile path content).1 with
      | .ok e =>
          if m.holds path then (.ok e, { w with backing := .memory (m.createFile path content).2 })
          else (.ok e, { w with
            backing := .memory (m.createFile path content).2,
            log := w.log ++ [⟨.debug, .stores, "created " ++ e.path⟩] })
      | .error f => (.error f, { w with backing := .memory (m.createFile path content).2 }) := by
  simp only [createFile, outcome_bind, outcome_get, hw, outcome_set, outcome_liftM_except]
  cases (m.createFile path content).1 with
  | error f => rfl
  | ok e => cases m.holds path <;> simp [Except.map]

theorem outcome_createFile_error (hw : w.backing = .memory m) {path content : Text} {f : Failure}
    (h : (m.createFile path content).1 = .error f) :
    (createFile path content).outcome w
      = (.error f, w.stored (m.createFile path content).2 []) := by
  rw [outcome_createFile hw, h]
  simp [World.stored]

theorem outcome_createFile_ok (hw : w.backing = .memory m) {path content : Text} {e : StoreEntry}
    (h : (m.createFile path content).1 = .ok e) :
    ∃ records, (createFile path content).outcome w
      = (.ok e, w.stored (m.createFile path content).2 records) := by
  rw [outcome_createFile hw, h]
  by_cases hh : m.holds path = true
  · exact ⟨[], by simp [hh, World.stored]⟩
  · exact ⟨_, by simp only [if_neg hh]; rfl⟩

theorem settles_createFile (hm : m.Tidy Path.IsSegment) (hw : w.backing = .memory m)
    (path content : Text) :
    Settles w m (m.pathMap.Closed (Path.segments path))
      (m.pathMap.create (Path.segments path) content)
      (· = Memory.entry (Path.segments path) false) (createFile path content) := by
  obtain ⟨hends, htidy⟩ := Memory.createFile_ends hm (Path.isSegment_segments path) content
  cases hr : (m.createFile path content).1 with
  | ok e =>
      obtain ⟨records, ho⟩ := outcome_createFile_ok hw hr
      rw [hr] at hends
      exact ⟨_, records, by rw [ho], htidy, by rw [ho]; exact hends⟩
  | error f =>
      have ho := outcome_createFile_error hw hr
      rw [hr] at hends
      exact ⟨_, [], by rw [ho], htidy, by rw [ho]; exact hends⟩

theorem outcome_createDirectory_error (hw : w.backing = .memory m) {path : Text} {f : Failure}
    (hr : m.createDirectory path = .error f) : (createDirectory path).outcome w = (.error f, w) := by
  simp [createDirectory, outcome_bind, outcome_get, hw, hr]

theorem settles_createDirectory (hm : m.Tidy Path.IsSegment) (hw : w.backing = .memory m)
    (path : Text) :
    Settles w m (Path.segments path = [] ∨ m.pathMap.Blocked (Path.segments path))
      (m.pathMap.makeDirectories (Path.segments path))
      (· = Memory.entry (Path.segments path) true) (createDirectory path) := by
  have he := Memory.createDirectory_ends hm (Path.isSegment_segments path)
  cases hr : m.createDirectory path with
  | ok made =>
      have ho : (createDirectory path).outcome w = (.ok made.1, w.stored made.2 []) := by
        simp [createDirectory, outcome_bind, outcome_get, hw, hr, World.stored, Except.map]
      rw [hr] at he
      obtain ⟨hentry, hfree, hmap, htidy⟩ := he
      exact ⟨made.2, [], by rw [ho], htidy, by rw [ho]; exact .done hfree hmap hentry⟩
  | error f =>
      have ho := outcome_createDirectory_error hw hr
      rw [hr] at he
      exact settles_of_refusal hm hw ho he.1 he.2

theorem outcome_deleteFile (hw : w.backing = .memory m) {path : Text}
    (hf : ¬w.faults.RefusesDeletion path) :
    (deleteFile path).outcome w = match m.deleteFile path with
      | .ok m' => (.ok (), w.stored m' [⟨.debug, .stores, "deleting " ++ Path.join [path]⟩])
      | .error f => (.error f, w) := by
  rw [Faults.RefusesDeletion] at hf
  simp only [deleteFile, outcome_bind, outcome_get, if_neg hf, hw]
  cases m.deleteFile path <;> simp [World.stored]

theorem outcome_deleteFile_refused {path : Text} (hf : w.faults.RefusesDeletion path) :
    (deleteFile path).outcome w = (.error (.permissionDenied path), w) := by
  rw [Faults.RefusesDeletion] at hf
  simp only [deleteFile, outcome_bind, outcome_get, if_pos hf, outcome_throw]

theorem settles_deleteFile (hm : m.Tidy Path.IsSegment) (hw : w.backing = .memory m)
    (hf : w.faults = {}) (path : Text) :
    Settles w m (¬m.pathMap.IsFile (Path.segments path))
      (m.pathMap.unbind (Path.segments path)) (fun _ => True) (deleteFile path) := by
  have he := Memory.deleteFile_ends hm (Path.isSegment_segments path)
  have ho := outcome_deleteFile hw (Faults.not_refusesDeletion hf path)
  cases hr : m.deleteFile path with
  | ok m' =>
      rw [hr] at he ho
      obtain ⟨hfile, hmap, htidy⟩ := he
      exact ⟨m', _, by rw [ho], htidy, by rw [ho]; exact .done (not_not_intro hfile) hmap trivial⟩
  | error f =>
      rw [hr] at he ho
      exact settles_of_refusal hm hw ho he.1 he.2

theorem outcome_deleteDirectory (hw : w.backing = .memory m) (path : Text) :
    (deleteDirectory path).outcome w = match m.deleteDirectory path with
      | .ok m' => (.ok (), w.stored m' [])
      | .error f => (.error f, w) := by
  simp only [deleteDirectory, World.change, outcome, hw]
  cases m.deleteDirectory path <;> simp [World.stored]

theorem settles_deleteDirectory (hm : m.Tidy Path.IsSegment) (hw : w.backing = .memory m)
    (path : Text) :
    Settles w m
      (Path.segments path = [] ∨ m.pathMap (Path.segments path) ≠ some .directory)
      (m.pathMap.unbindBelow (Path.segments path)) (fun _ => True) (deleteDirectory path) := by
  have he := Memory.deleteDirectory_ends hm (Path.isSegment_segments path)
  have ho := outcome_deleteDirectory hw path
  cases hr : m.deleteDirectory path with
  | ok m' =>
      rw [hr] at he ho
      obtain ⟨hne, hdir, hmap, htidy⟩ := he
      refine ⟨m', [], by rw [ho], htidy, ?_⟩
      rw [ho]
      exact .done (not_or.mpr ⟨hne, not_not_intro hdir⟩) hmap trivial
  | error f =>
      rw [hr] at he ho
      exact settles_of_refusal hm hw ho he.1 he.2

theorem settles_clear (hw : w.backing = .memory m) :
    Settles w m False PathMap.bare (fun _ => True) clear := by
  have ho : clear.outcome w = (.ok (), w.stored m.clear []) := by
    simp [clear, World.change, outcome, hw, World.stored]
  refine ⟨m.clear, [], by rw [ho], m.clear_tidy, ?_⟩
  rw [ho]
  exact .done id m.pathMap_clear trivial

/-! ## Refusals -/

/-- A refused operation leaves the map of the store as it is. -/
def Spares (w : World) (m : Memory) (refused : Prop) (x : Action World α) : Prop :=
  refused → ∀ m', (x.outcome w).2.backing = .memory m' → m'.pathMap = m.pathMap

theorem spares_of_refusal {refused : Prop} {x : Action World α} (hw : w.backing = .memory m)
    (h : refused → ∃ f, x.outcome w = (.error f, w)) : Spares w m refused x := by
  intro hr m' hm'
  obtain ⟨f, ho⟩ := h hr
  rw [ho, hw] at hm'
  cases hm'
  rfl

theorem spares_write (hw : w.backing = .memory m) (hf : w.faults = {}) (path content : Text) :
    Spares w m (¬m.pathMap.IsFile (Path.segments path)) (write path content) := by
  refine spares_of_refusal hw fun hr => ?_
  obtain ⟨f, hread⟩ := Memory.exists_read_eq_error.mpr hr
  exact ⟨f, outcome_write_error hw (by simp [hf]) (by rw [Memory.write, hread]; rfl)⟩

theorem spares_createFile (hm : m.Tidy Path.IsSegment) (hw : w.backing = .memory m)
    (path content : Text) :
    Spares w m (m.pathMap.Closed (Path.segments path)) (createFile path content) := by
  intro hclosed m' hm'
  have hsame := Memory.createFile_snd_of_closed hm (Path.isSegment_segments path) hclosed content
  have hback : ((createFile path content).outcome w).2.backing
      = .memory (m.createFile path content).2 := by
    rw [outcome_createFile hw]
    split
    · split <;> rfl
    · rfl
  rw [hback, hsame] at hm'
  cases hm'
  rfl

theorem spares_createDirectory (hm : m.Tidy Path.IsSegment) (hw : w.backing = .memory m)
    (path : Text) :
    Spares w m (Path.segments path = [] ∨ m.pathMap.Blocked (Path.segments path))
      (createDirectory path) := by
  refine spares_of_refusal hw fun hr => ?_
  have he := Memory.createDirectory_ends hm (Path.isSegment_segments path)
  cases hmade : m.createDirectory path with
  | ok made =>
      rw [hmade] at he
      exact absurd hr he.2.1
  | error f => exact ⟨f, outcome_createDirectory_error hw hmade⟩

theorem spares_deleteFile (hm : m.Tidy Path.IsSegment) (hw : w.backing = .memory m)
    (hf : w.faults = {}) (path : Text) :
    Spares w m (¬m.pathMap.IsFile (Path.segments path)) (deleteFile path) := by
  refine spares_of_refusal hw fun hr => ?_
  have he := Memory.deleteFile_ends hm (Path.isSegment_segments path)
  have ho := outcome_deleteFile hw (Faults.not_refusesDeletion hf path)
  cases hdone : m.deleteFile path with
  | ok m' =>
      rw [hdone] at he
      exact absurd he.1 hr
  | error f => exact ⟨f, by rw [ho, hdone]⟩

theorem spares_deleteDirectory (hm : m.Tidy Path.IsSegment) (hw : w.backing = .memory m)
    (path : Text) :
    Spares w m (Path.segments path = [] ∨ m.pathMap (Path.segments path) ≠ some .directory)
      (deleteDirectory path) := by
  refine spares_of_refusal hw fun hr => ?_
  have he := Memory.deleteDirectory_ends hm (Path.isSegment_segments path)
  have ho := outcome_deleteDirectory hw path
  cases hdone : m.deleteDirectory path with
  | ok m' =>
      rw [hdone] at he
      exact absurd hr (not_or.mpr ⟨he.1, not_not_intro he.2.1⟩)
  | error f => exact ⟨f, by rw [ho, hdone]⟩

/-! ## Copying and moving -/

theorem settles_copy (hm : m.Tidy Path.IsSegment) (hw : w.backing = .memory m)
    (hf : w.faults.brokenReads = none) (source dest : Text) :
    Settles w m
      (¬m.pathMap.IsFile (Path.segments source) ∨ m.pathMap.Closed (Path.segments dest))
      (m.pathMap.copy (Path.segments source) (Path.segments dest))
      (· = Memory.entry (Path.segments dest) false) (copy source dest) := by
  by_cases hdir : m.isDirectory source = true
  · have ho : (copy source dest).outcome w = (.error (.directoryCopy source), w) := by
      simp [copy, outcome_bind, outcome_isDirectory hw, hdir]
    rw [Memory.isDirectory_iff] at hdir
    exact settles_of_refusal hm hw ho (Or.inl fun h => h.not_directory hdir) (Or.inr rfl)
  · cases hr : m.read source with
    | error f =>
        have ho : (copy source dest).outcome w = (.error f, w) := by
          simp [copy, outcome_bind, outcome_isDirectory hw, hdir, outcome_read hw hf, hr]
        exact settles_of_refusal hm hw ho (Or.inl (Memory.exists_read_eq_error.mp ⟨f, hr⟩))
          (Memory.read_eq_error hr)
    | ok text =>
        have ho : (copy source dest).outcome w = (createFile dest text).outcome w := by
          simp [copy, outcome_bind, outcome_isDirectory hw, hdir, outcome_read hw hf, hr]
        have hfile := Memory.read_eq_ok.mp hr
        obtain ⟨m', records, hworld, htidy, hends⟩ := settles_createFile hm hw dest text
        refine ⟨m', records, by rw [ho, hworld], htidy, ?_⟩
        rw [ho]
        refine hends.congr ?_ ?_
        · simp [PathMap.IsFile, hfile]
        · simp [PathMap.copy, hfile]

/-- The second half of a move: the file is copied and then deleted at its source. When it cannot be
deleted there, the destination is put back as it was. -/
def transfer (source dest : Text) (former : Option Text) : Action World Unit := do
  let _ ← copy source dest
  tryCatch (deleteFile source) fun f =>
    if f.isExpected then do
      rollBack dest former
      throw (.sourceKept source f)
    else throw f

/-- A move asks about its paths and transfers the file then. -/
theorem yields_move_of {I : World → Prop} {P : Unit → Prop} {Q : Bool → Prop} {E : Failure → Prop}
    {source dest : Text} (hdirectory : E (.directoryMove source)) (hsame : source = dest → P ())
    (hsource : (isDirectory source).Yields I (fun _ => True) E)
    (hholds : (holds dest).Yields I Q E)
    (hdest : Q true → (isDirectory dest).Yields I (fun _ => True) E)
    (hread : Q true → (read dest).Yields I (fun _ => True) E)
    (htransfer : ∀ former, (transfer source dest former).Yields I P E) :
    (move source dest).Yields I P E := by
  have hfile (isFile : Bool) (hheld : isFile = true → Q true) : (do
      let former ← if isFile then some <$> read dest else pure none
      transfer source dest former).Yields I P E := by
    refine yields_ite (fun hfile => ?_) fun _ => htransfer none
    refine Yields.bind (P := fun _ => True) ?_ fun former _ => htransfer former
    exact (hread (hheld hfile)).map fun _ _ => trivial
  refine hsource.bind fun _ _ => yields_ite (fun _ => yields_throw hdirectory) fun _ => ?_
  refine yields_ite (fun h => yields_pure (hsame h)) fun _ => hholds.bind fun held hheld => ?_
  refine yields_ite (fun h => ?_) fun _ => hfile false (by simp)
  have hheld : Q true := h ▸ hheld
  exact (hdest hheld).bind fun d _ => hfile (!d) fun _ => hheld

/-- Moves end alike when what they ask and the transfer do. -/
theorem alike_move_of {tie : Tie World} {source dest : Text}
    (hsource : tie.Alike (isDirectory source) fun _ => True)
    (hholds : tie.Alike (holds dest) fun _ => True)
    (hdest : tie.Alike (isDirectory dest) fun _ => True)
    (hread : tie.Alike (read dest) fun _ => True)
    (htransfer : ∀ former, tie.Alike (transfer source dest former) fun _ => True) :
    tie.Alike (move source dest) fun _ => True := by
  have hrest (isFile : Bool) : tie.Alike (do
      let former ← if isFile then some <$> read dest else pure none
      transfer source dest former) fun _ => True := by
    have hformer : tie.Alike (some <$> read dest) fun _ => True :=
      hread.bind fun _ _ => Tie.alike_pure trivial
    exact Tie.alike_ite (fun _ => hformer.bind fun former _ => htransfer former)
      fun _ => htransfer none
  refine hsource.bind fun _ _ => Tie.alike_ite (fun _ => Tie.alike_throw _) fun _ => ?_
  refine Tie.alike_ite (fun _ => Tie.alike_pure trivial) fun _ => hholds.bind fun _ _ => ?_
  refine Tie.alike_ite (fun _ => ?_) fun _ => hrest false
  exact hdest.bind fun directory _ => hrest !directory

/-- A move transfers the file with what the destination held. -/
theorem outcome_move (hw : w.backing = .memory m) (hf : w.faults.brokenReads = none)
    {source dest : Text} (hdir : m.isDirectory source ≠ true) (hne : source ≠ dest) :
    (move source dest).outcome w
      = (transfer source dest (m.read dest).toOption).outcome w := by
  simp only [move, outcome_bind, outcome_isDirectory hw, hdir, hne, outcome_holds hw, outcome_ite,
    outcome_map, outcome_pure, Bool.not_eq_true', if_false]
  by_cases hh : m.holds dest = true
  · by_cases hd : m.isDirectory dest = true
    · have hr := Memory.toOption_read_of_not_file fun hfile =>
        hfile.not_directory (Memory.isDirectory_iff.mp hd)
      simp [hh, hd, hr, transfer, outcome_bind]
    · obtain ⟨text, hr⟩ := Memory.exists_read_eq_ok hh hd
      simp [hh, hd, outcome_read hw hf, hr, Except.map, Except.toOption, transfer, outcome_bind]
  · have hr : (m.read dest).toOption = none := Memory.toOption_read_of_not_file fun ⟨_, hfile⟩ =>
      hh (Memory.holds_iff.mpr (by simp [hfile]))
    simp [hh, hr, transfer, outcome_bind]

theorem settles_transfer (hm : m.Tidy Path.IsSegment) (hw : w.backing = .memory m)
    (hf : w.faults = {}) (source dest : Text) (former : Option Text) :
    Settles w m
      (¬m.pathMap.IsFile (Path.segments source) ∨ m.pathMap.Closed (Path.segments dest))
      ((m.pathMap.copy (Path.segments source) (Path.segments dest)).unbind (Path.segments source))
      (fun _ => True) (transfer source dest former) := by
  obtain ⟨m₁, records, hworld, htidy, hends⟩ :=
    settles_copy hm hw (unbroken_of_faultless hf) source dest
  generalize hc : (copy source dest).outcome w = out at hworld hends
  obtain ⟨r, w₁⟩ := out
  obtain rfl : w₁ = w.stored m₁ records := hworld
  cases hends with
  | refused hr hfail hwithin =>
      have ho : (transfer source dest former).outcome w = (.error _, w.stored m₁ records) :=
        outcome_bind_error hc
      exact ⟨m₁, records, by rw [ho], htidy, by rw [ho]; exact .refused hr hfail hwithin⟩
  | full hr hlt hwithin =>
      have ho : (transfer source dest former).outcome w = (.error _, w.stored m₁ records) :=
        outcome_bind_error hc
      exact ⟨m₁, records, by rw [ho], htidy, by rw [ho]; exact .full hr hlt hwithin⟩
  | done hopen hmap _ =>
      have hfile : m.pathMap.IsFile (Path.segments source) :=
        Classical.not_not.mp fun h => hopen (Or.inl h)
      have he := Memory.deleteFile_ends htidy (Path.isSegment_segments source)
      cases hd : m₁.deleteFile source with
      | error f =>
          rw [hd] at he
          exact absurd (hmap ▸ hfile.copy _) he.1
      | ok m₂ =>
          rw [hd] at he
          obtain ⟨_, hmap₂, htidy₂⟩ := he
          have hdel := outcome_deleteFile (w := w.stored m₁ records) (m := m₁) rfl
            (Faults.not_refusesDeletion hf source)
          simp only [hd, stored_stored] at hdel
          obtain ⟨records', ho⟩ : ∃ records',
              (transfer source dest former).outcome w = (.ok (), w.stored m₂ records') :=
            ⟨_, by rw [transfer, outcome_bind_ok hc, outcome_tryCatch, hdel]⟩
          refine ⟨m₂, records', by rw [ho], htidy₂, ?_⟩
          rw [ho]
          exact .done hopen (by rw [hmap₂, hmap]) trivial

theorem settles_move (hm : m.Tidy Path.IsSegment) (hw : w.backing = .memory m)
    (hf : w.faults = {}) (source dest : Text) :
    Settles w m
      (m.pathMap (Path.segments source) = some .directory ∨ source ≠ dest
        ∧ (¬m.pathMap.IsFile (Path.segments source) ∨ m.pathMap.Closed (Path.segments dest)))
      (if source = dest then m.pathMap
        else (m.pathMap.copy (Path.segments source) (Path.segments dest)).unbind
          (Path.segments source))
      (fun _ => True) (move source dest) := by
  by_cases hdir : m.isDirectory source = true
  · have ho : (move source dest).outcome w = (.error (.directoryMove source), w) := by
      simp [move, outcome_bind, outcome_isDirectory hw, hdir]
    exact settles_of_refusal hm hw ho (Or.inl (Memory.isDirectory_iff.mp hdir)) (Or.inr rfl)
  · have hmap : m.pathMap (Path.segments source) ≠ some .directory :=
      mt Memory.isDirectory_iff.mpr hdir
    by_cases hsame : source = dest
    · subst hsame
      have ho : (move source source).outcome w = (.ok (), w) := by
        simp [move, outcome_bind, outcome_isDirectory hw, hdir]
      refine ⟨m, [], by rw [ho, stored_self hw], hm, ?_⟩
      rw [ho]
      exact .done (by simpa using hmap) (by simp) trivial
    · have ho := outcome_move hw (unbroken_of_faultless hf) hdir hsame
      obtain ⟨m', records, hworld, htidy, hends⟩ := settles_transfer hm hw hf source dest _
      refine ⟨m', records, by rw [ho, hworld], htidy, ?_⟩
      rw [ho]
      exact hends.congr (by simp [hmap, hsame]) (by simp [hsame])

end Store

end PipeShell
