import PipeShell.Proofs.Disk.Picked
import PipeShell.Proofs.Folder.Entries
import PipeShell.Proofs.Shell.Listing
import PipeShell.Proofs.Shell.Paired
import PipeShell.Proofs.Shell.PairedRuns
import PipeShell.Proofs.Store.Listed
import PipeShell.Proofs.Store.Twin

/-!
# A shell on a store in memory and one on disk

The operations that commands are made of end alike in two shells of which the one has its store in
memory and the other on disk, so every command is answered alike.
-/

namespace PipeShell

open Tie PipeShell.Action

/-! ## Listings -/

/-- The entry of a path below a directory. -/
def StoreEntry.below (above : List Text) (e : List Text × Bool) : StoreEntry :=
  Memory.entry (above ++ e.1) e.2

theorem Memory.list_of_directory {m : Memory} {path : Text} {inside : Folder Text}
    (hn : m.tree.node? (Path.segments path) = some (.folder inside)) :
    m.list path = .ok (inside.kinds.map (StoreEntry.below (Path.segments path))) := by
  rw [list_of_folder hn, Folder.entriesUnder_append, Folder.kinds, List.map_map, List.map_map]
  rfl

theorem Memory.list_of_not_directory {m : Memory} {path : Text}
    (h : m.pathMap (Path.segments path) ≠ some .directory) : ∃ f, m.list path = .error f := by
  cases hd : m.directory path with
  | ok inside =>
      exact absurd (Folder.binding?_eq_directory.mpr ⟨inside, Memory.directory_eq_ok.mp hd⟩) h
  | error f => exact ⟨f, by rw [list, hd]; rfl⟩

theorem Host.list_perm {above : List Text} {inside : Folder Bytes} (hd : inside.Distinct) :
    (inside.sortedEntries.map fun e =>
        (⟨e.1.getLastD [], Path.ofSegments (above ++ e.1), e.2.isNone⟩ : StoreEntry)).Perm
      (inside.kinds.map (StoreEntry.below above)) := by
  refine ((List.mergeSort_perm _ _).map _).trans (List.Perm.of_eq ?_)
  rw [Folder.kinds, List.map_map]
  refine List.map_congr_left fun e he => ?_
  obtain ⟨path, b, hne, -, rfl⟩ := (Folder.mem_entriesUnder hd).mp he
  simp [StoreEntry.below, Memory.entry, List.getLast?_append_of_ne_nil _ hne]

namespace World

variable {h : Host} {here : List Text} {m : Memory} {v w : World} {path : Text}

/-- A directory has the same entries in both stores. -/
theorem Twin.kinds_perm (ht : Twin h here m v w) {above : List Text} {inside : Folder Text}
    {inside' : Folder Bytes} (hn : m.tree.node? above = some (.folder inside))
    (hn' : w.disk.tree.node? (h.root ++ above) = some (.folder inside')) :
    inside.kinds.Perm inside'.kinds := by
  refine Folder.kinds_perm (ht.tidy.node hn) (ht.fits.distinct.node hn') fun q => ?_
  have hmirror := ht.mirrors (above ++ q)
  rw [← List.append_assoc, Folder.binding?_of_folder hn', Memory.pathMap,
    Folder.binding?_of_folder hn] at hmirror
  rw [hmirror, Option.map_map]
  congr 1
  funext b
  simp

theorem Twin.placed_below (ht : Twin h here m v w) {above : List Text} {inside : Folder Text}
    (hn : m.tree.node? above = some (.folder inside)) {kind : List Text × Bool}
    (hkind : kind ∈ inside.kinds) :
    (StoreEntry.below above kind).Placed ∧ '\r' ∉ (StoreEntry.below above kind).name
      ∧ '\r' ∉ (StoreEntry.below above kind).path := by
  obtain ⟨q, directory⟩ := kind
  obtain ⟨hne, hb⟩ := (Folder.mem_kinds (ht.tidy.node hn)).mp hkind
  have hbound : m.pathMap (above ++ q) ≠ none := by
    rw [Memory.pathMap, Folder.binding?_of_folder hn]
    intro hnone
    simp [hnone] at hb
  have hreturn := ht.clean.names _ hbound
  have hname : (above ++ q) ≠ [] := by simp [hne]
  refine ⟨⟨_, hname, Folder.Tidy.admits_of_bound ht.tidy hbound, rfl, rfl⟩, ?_, ?_⟩
  · rw [StoreEntry.below, Memory.entry, List.getLastD_eq_getLast?,
      List.getLast?_eq_some_getLast hname]
    exact hreturn _ (List.getLast_mem hname)
  · exact Text.within_ne.mp
      (Path.within_ofSegments (by decide) fun s hs => Text.within_ne.mpr (hreturn s hs))

theorem pairs_list (hp : Path.Fair path) :
    (twins h here).Pairs (Store.list path) (Store.list path) fun es es' =>
      es.Perm es' ∧ ∀ e ∈ es, e.Placed ∧ '\r' ∉ e.name ∧ '\r' ∉ e.path := by
  rintro v w ⟨m, ht⟩
  have ho : (Store.list path).outcome v = (m.list path, v) := by
    simp [Store.list, World.ask, outcome, ht.memory]
  rw [ho, Store.outcome_list_host ht.host]
  by_cases hdir : m.pathMap (Path.segments path) = some .directory
  · obtain ⟨inside, hn⟩ := Folder.binding?_eq_directory.mp hdir
    obtain ⟨inside', hn', hl⟩ := Host.list_of_directory ht.fits hp.plain ht.mirrors hdir
    have hsame := ht.kinds_perm hn hn'
    have hlisted := @Host.list_perm (Path.segments path) inside' (ht.fits.distinct.node hn')
    rw [Memory.list_of_directory hn, hl]
    refine .gave ⟨(hsame.map _).trans hlisted.symm, fun e he => ?_⟩ ⟨m, ht⟩
    obtain ⟨kind, hkind, rfl⟩ := List.mem_map.mp he
    exact ht.placed_below hn hkind
  · obtain ⟨g, hg⟩ := Host.list_of_not_directory ht.fits hp.plain ht.mirrors hdir
    obtain ⟨f, hf⟩ := Memory.list_of_not_directory hdir
    rw [hf, hg]
    exact .failed (.inr trivial) ⟨m, ht⟩

end World

/-! ## Files of the host -/

namespace Picker

variable {p : Picker} {name : Text} {d : Disk} {file : PickedFile}

/-- A picked file is named by its address, and its content has unified newlines. -/
theorem pick_eq_ok (h : p.pick name d = .ok file) :
    ∃ source, p.source name = .ok source ∧ source.hasNull = false ∧ file.name = source.name
      ∧ '\r' ∉ file.content := by
  rw [pick] at h
  cases hs : p.source name with
  | error f => simp [hs] at h
  | ok source =>
      rw [hs, Attempt.ok_bind] at h
      cases hn : d.probe source with
      | error f => simp [hn] at h
      | ok n =>
          rw [hn, Attempt.ok_bind] at h
          split at h
          · rename_i bytes
            have hnull : source.hasNull = false := by
              cases hnull : source.hasNull with
              | false => rfl
              | true => simp [Disk.probe, hnull] at hn
            cases h
            exact ⟨source, rfl, hnull, rfl, Text.not_mem_unifyNewlines _⟩
          · cases h

theorem pick_of_mem_pickAll {names : List Text} {files : List PickedFile}
    (h : p.pickAll names d = .ok files) (hf : file ∈ files) :
    ∃ name ∈ names, p.pick name d = .ok file := by
  induction names generalizing files with
  | nil =>
      cases h
      cases hf
  | cons name names ih =>
      rw [pickAll, List.mapM_cons] at h
      cases hpick : p.pick name d with
      | error f => simp [hpick] at h
      | ok first =>
          rw [hpick, Attempt.ok_bind] at h
          cases hrest : p.pickAll names d with
          | error f =>
              rw [pickAll] at hrest
              simp [hrest] at h
          | ok rest =>
              have hpicked := hrest
              rw [pickAll] at hrest
              rw [hrest] at h
              cases h
              rcases List.mem_cons.mp hf with rfl | hf
              · exact ⟨name, by simp, hpick⟩
              · obtain ⟨other, hother, hfile⟩ := ih hpicked hf
                exact ⟨other, by simp [hother], hfile⟩

end Picker

theorem Address.null_not_mem_name {a : Address} (hnull : a.hasNull = false) : '\x00' ∉ a.name := by
  have hall : ∀ s ∈ a.parts, '\x00' ∉ s := by simpa [hasNull] using hnull
  rw [name, List.getLastD_eq_getLast?]
  cases hlast : a.parts.getLast? with
  | none => simp
  | some s => exact hall s (List.mem_of_getLast? hlast)

/-- Saving reaches the directory that is saved to on the way to the file. -/
theorem Address.Avoids.base {root here : List Text} {base : Address} {path : Text}
    (h : (base.append (.ofText (Path.name path))).Avoids root here) : base.Avoids root here := by
  have hrelative : (ofText (Path.name path)).root = [] := by
    have hname : Path.isAbsolute (Path.name path) = false := by
      rw [Path.name, Path.parentAndName, List.getLastD_eq_getLast?]
      cases hlast : (Path.segments path).getLast? with
      | none => rfl
      | some s =>
          have hs : ∀ t ∈ [s], Path.IsSegment t := by
            simpa using Path.isSegment_of_mem_segments (List.mem_of_getLast? hlast)
          exact Path.ofSegments_not_absolute hs
    simp [ofText, Path.ownRoot_of_relative hname, hname]
  refine Path.Avoids.above h ?_
  rw [append, if_pos hrelative]
  simp only [segmentsFrom]
  split
  · rw [← List.append_assoc]
    exact List.prefix_append _ _
  · exact List.prefix_append _ _

namespace World

variable {h : Host} {here : List Text} {v w : World} {p : Picker} {content : Text}

/-- The disks changed outside of the store. -/
theorem Twin.outside {m : Memory} {d d' : Disk} (ht : Twin h here m v w)
    (hs : Disk.SameOutside h.root d d') (hk : Disk.Kept h.root w.disk d') :
    Twin h here m { v with disk := d } { w with disk := d' } where
  memory := ht.memory
  host := ht.host
  faults := ht.faults
  faults' := ht.faults'
  tidy := ht.tidy
  clean := ht.clean
  fits := by
    refine ⟨ht.fits.encoding, ht.fits.root, ?_, hs.distinct'⟩
    rw [hk.same]
    exact ht.fits.unlimited
  mirrors path := (hk.inside _ (List.prefix_append _ _)).trans (ht.mirrors path)
  apart := hs
  here := by
    rw [hk.same]
    exact ht.here

theorem alike_save {path : Text}
    (ht : (p.base.append (.ofText (Path.name path))).Avoids h.root here) :
    (twins h here).Alike (onDisk (p.save (Path.name path) content))
      fun place => place = (p.base.append (.ofText (Path.name path))).toText := by
  rintro v w ⟨m, hvw⟩
  have htarget : (p.base.append (.ofText (Path.name path))).Avoids h.root
      w.disk.workingDirectory := by rwa [hvw.here]
  have hsaved : (Disk.apart h.root w.disk).Alike (p.save (Path.name path) content) _ :=
    Picker.alike_save htarget.base htarget
  replace hsaved := hsaved v.disk w.disk ⟨hvw.apart, rfl, fun _ _ => rfl⟩
  rw [Store.outcome_onDisk, Store.outcome_onDisk]
  generalize (p.save (Path.name path) content).outcome v.disk = out at hsaved
  generalize (p.save (Path.name path) content).outcome w.disk = out' at hsaved
  cases hsaved with
  | gave hplace hstates => exact .gave hplace ⟨m, hvw.outside hstates.1 hstates.2⟩
  | failed _ hstates => exact .failed (.inr trivial) ⟨m, hvw.outside hstates.1 hstates.2⟩
  | excused hf => exact hf.elim

/-- The same files are picked, since none is in the store. -/
theorem sameAttempts_pickAll (hvw : (twins h here).states v w) (hbase : p.base.Proper)
    {names : List Text} (hnear : ∀ name ∈ names, ∀ source, p.source name = .ok source →
      source.Avoids h.root here ∧ '\r' ∉ source.name) :
    (twins h here).SameAttempts (p.pickAll names v.disk) (p.pickAll names w.disk) fun files =>
      ∀ file ∈ files, Path.Fair file.name ∧ file.content.Within (· ≠ '\r') := by
  obtain ⟨m, ht⟩ := hvw
  have hhere : v.disk.workingDirectory = here := ht.apart.workingDirectory.trans ht.here
  rw [Picker.pickAll_eq ht.apart fun name hname source hsource => by
    rw [hhere]
    exact (hnear name hname source hsource).1]
  refine sameAttempts_self fun files hfiles file hfile => ?_
  obtain ⟨name, hname, hpick⟩ := Picker.pick_of_mem_pickAll hfiles hfile
  obtain ⟨source, hsource, hnull, hsame, hcontent⟩ := Picker.pick_eq_ok hpick
  have hforward := (Picker.pick_gives hbase name w.disk).given hpick
  refine ⟨⟨hforward, ?_⟩, Text.within_ne.mpr hcontent⟩
  rw [hsame]
  intro c hc
  constructor
  · rintro rfl
    exact (hnear name hname source hsource).2 hc
  · rintro rfl
    exact Address.null_not_mem_name hnull hc

theorem alike_countClear : (twins h here).Alike countClear fun _ => True := by
  rintro v w ⟨m, ht⟩
  exact .gave ⟨rfl, trivial⟩ ⟨m, { ht with }⟩

end World

/-! ## The pairing -/

/-- The same shell on a store in memory and on one on disk. -/
def Pairing.twins (h : Host) (here : List Text) (picker : Option Picker) : Pairing where
  picker := picker
  worlds := (World.twins h here).states
  shells a b := a = b ∧ a.picker = picker ∧ Path.Fair a.cwd
  lax := True
  excused := (World.twins h here).excused
  named := Path.Letter
  shown := (· ≠ '\r')
  path := Path.Fair
  picked := Path.Fair
  near verb a := a.Avoids h.root here ∧ '\r' ∉ if verb = .importFiles then a.name else a.toText

namespace Pairing

variable {h : Host} {here : List Text} {picker : Option Picker}

theorem lawful_twins (hbase : ∀ p ∈ picker, p.base.Proper) :
    (twins h here picker).Lawful where
  view hab := by rw [hab.1]
  picker hab := hab.2.1
  cwd hab := hab.2.2.shown
  enter := by
    rintro a _ cwd ⟨rfl, hpicker, -⟩ hcwd
    exact ⟨rfl, hpicker, hcwd⟩
  path_root := ⟨by simp [Path.Forward], Text.within_nil⟩
  path_resolve hab hpath := hab.2.2.resolve hpath
  path_into hd hs := Path.Fair.join (by simpa using ⟨hd, hs.name⟩)
  path_picked hab hname := Path.Fair.join (by simpa using ⟨hab.2.2, hname⟩)
  shown_path hp := hp.shown
  shown_named hc := hc.1
  shown_plain _ hc := hc
  list hp := by
    refine (World.pairs_list hp).mono fun es es' h => ?_
    obtain ⟨hperm, hes⟩ := h
    refine ⟨hperm.length_eq, ?_, ?_⟩
    · exact Command.ordered_childrenOf_perm hperm fun e he => (hes e he).1
    · exact fun e he => ⟨Text.within_ne.mpr (hes e he).2.1, Text.within_ne.mpr (hes e he).2.2⟩
  read hp := (World.alike_read hp).mono fun _ ht => Text.within_ne.mpr ht
  holds hp := World.alike_holds hp
  isDirectory hp := World.alike_isDirectory hp
  countClear := World.alike_countClear
  pick hp hworlds _ hnear := World.sameAttempts_pickAll hworlds (hbase _ hp) hnear
  save _ ht _ := (World.alike_save ht.1).mono fun _ hplace => hplace ▸ Text.within_ne.mpr ht.2

theorem changing_twins (hbase : ∀ p ∈ picker, p.base.Proper) :
    (twins h here picker).Changing where
  toLawful := lawful_twins hbase
  write hp hc := World.alike_write hp (Text.within_ne.mp hc)
  createFile hp hc := World.alike_createFile hp (Text.within_ne.mp hc)
  createDirectory hp := World.alike_createDirectory hp
  deleteFile hp := World.alike_deleteFile hp
  deleteDirectory hp := World.alike_deleteDirectory hp
  move hs hd := World.alike_move hs hd
  clear := World.alike_clear

theorem steady_twins : (twins h here picker).Steady where
  view := And.left
  noted := by
    rintro v w records records' ⟨m, ht⟩ -
    exact ⟨m, { ht with }⟩
  expected := by
    rintro f ⟨projected, quota, rfl⟩
    rfl

end Pairing

end PipeShell
