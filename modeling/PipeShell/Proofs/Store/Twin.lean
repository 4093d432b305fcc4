import PipeShell.Proofs.Disk.Apart
import PipeShell.Proofs.Store.Mirrored
import PipeShell.Proofs.Store.Settled
import PipeShell.Proofs.Text.Within

/-!
# A store in memory and one on disk

Two worlds, one with its store in memory and one with its store on a disk that mirrors it. The
operations of the stores end alike and keep the worlds so, unless the store in memory is full.
-/

namespace PipeShell

/-- No name of a bound path and no text holds a carriage return. -/
structure PathMap.Clean (m : PathMap) : Prop where
  names : ∀ path, m path ≠ none → ∀ s ∈ path, '\r' ∉ s
  texts : ∀ path text, m path = some (.file text) → '\r' ∉ text

namespace PathMap

variable {m : PathMap} {path : List Text} {text : Text}

theorem Clean.bindFile (hm : m.Clean) (hp : ∀ s ∈ path, '\r' ∉ s) (ht : '\r' ∉ text) :
    (m.bindFile path text).Clean := by
  constructor
  · intro q hq
    by_cases hsame : q = path
    · exact hsame ▸ hp
    · exact hm.names q (by simpa [PathMap.bindFile, hsame] using hq)
  · intro q content hq
    by_cases hsame : q = path
    · obtain rfl : text = content := by simpa [PathMap.bindFile, hsame] using hq
      exact ht
    · exact hm.texts q content (by simpa [PathMap.bindFile, hsame] using hq)

theorem Clean.makeDirectories (hm : m.Clean) (hp : ∀ s ∈ path, '\r' ∉ s) :
    (m.makeDirectories path).Clean := by
  constructor
  · intro q hq
    by_cases hpre : q <+: path
    · exact fun s hs => hp s (hpre.subset hs)
    · exact hm.names q (by simpa [PathMap.makeDirectories, hpre] using hq)
  · intro q content hq
    refine hm.texts q content ?_
    simp only [PathMap.makeDirectories] at hq
    split at hq
    · cases hq
    · exact hq

theorem Clean.create (hm : m.Clean) (hp : ∀ s ∈ path, '\r' ∉ s) (ht : '\r' ∉ text) :
    (m.create path text).Clean :=
  (hm.makeDirectories fun s hs => hp s (List.dropLast_subset _ hs)).bindFile hp ht

theorem Clean.unbindBelow (hm : m.Clean) (path : List Text) : (m.unbindBelow path).Clean := by
  constructor
  · intro q hq
    refine hm.names q fun hnone => hq ?_
    simp [PathMap.unbindBelow, hnone]
  · intro q content hq
    refine hm.texts q content ?_
    simp only [PathMap.unbindBelow] at hq
    split at hq
    · cases hq
    · exact hq

theorem Clean.unbind (hm : m.Clean) (path : List Text) : (m.unbind path).Clean := by
  constructor
  · intro q hq
    refine hm.names q fun hnone => hq ?_
    simp [PathMap.unbind, hnone]
  · intro q content hq
    refine hm.texts q content ?_
    simp only [PathMap.unbind] at hq
    split at hq
    · cases hq
    · exact hq

theorem clean_bare : bare.Clean := by
  constructor
  · intro q hq
    obtain rfl : q = [] := by
      by_contra hne
      simp [bare, hne] at hq
    simp
  · intro q content hq
    simp only [bare] at hq
    split at hq <;> cases hq

end PathMap

/-- A character that paths may have. -/
abbrev Path.Letter (c : Char) : Prop :=
  c ≠ '\r' ∧ c ≠ '\x00'

/-- The path does not step back, and is made of the characters that paths may have. -/
structure Path.Fair (path : Text) : Prop where
  forward : Forward path
  letters : path.Within Letter

namespace Path.Fair

variable {path : Text}

theorem plain (h : Fair path) : Disk.Plain (segments path) :=
  fun s hs => ⟨(h.forward s hs).2, fun hnull =>
    (within_of_mem_segments h.letters hs '\x00' hnull).2 rfl⟩

theorem returnless (h : Fair path) : ∀ s ∈ segments path, '\r' ∉ s :=
  fun _ hs hreturn => (within_of_mem_segments h.letters hs '\r' hreturn).1 rfl

theorem shown (h : Fair path) : path.Within (· ≠ '\r') :=
  h.letters.mono fun _ hc => hc.1

theorem name (h : Fair path) : Fair (name path) :=
  ⟨forward_name h.forward, within_name h.letters⟩

theorem join {paths : List Text} (h : ∀ path ∈ paths, Fair path) : Fair (join paths) where
  forward := (normal_join fun path hp => (h path hp).forward).forward
  letters := within_join (by decide) fun path hp => (h path hp).letters

theorem resolve {cwd : Text} {path : Option Text} (hc : Fair cwd)
    (h : ∀ t ∈ path, t.Within Letter) : Fair (resolve cwd path) where
  forward := forward_resolve cwd path
  letters := within_resolve (by decide) hc.letters h

end Path.Fair

/-- Two worlds without faults: the one has its store in memory, the other on a disk that mirrors it.
Outside of the store the disks of both are the same, where programs run in the directory at
`here`. -/
structure World.Twin (h : Host) (here : List Text) (m : Memory) (v w : World) : Prop where
  memory : v.backing = .memory m
  host : w.backing = .host h
  faults : v.faults = {}
  faults' : w.faults = {}
  tidy : m.Tidy Path.IsSegment
  clean : m.pathMap.Clean
  fits : h.Fits w.disk
  mirrors : h.Mirrors w.disk m.pathMap
  apart : Disk.SameOutside h.root v.disk w.disk
  here : w.disk.workingDirectory = here

/-- Two such worlds, where failures may differ, and nothing is said once the store in memory is
full. -/
def World.twins (h : Host) (here : List Text) : Tie World :=
  ⟨fun v w => ∃ m, Twin h here m v w, True, fun f => ∃ projected quota, f = .quotaExceeded projected quota⟩

namespace World.Twin

open PipeShell.Action

variable {h : Host} {here : List Text} {m m' : Memory} {v w : World} {d : Disk} {path : Text}
  {α : Type}

/-- Both stores changed in the same way. -/
theorem after (ht : Twin h here m v w) (htidy : m'.Tidy Path.IsSegment) (hclean : m'.pathMap.Clean)
    (hb : h.Becomes w.disk d m'.pathMap) (records records' : List LogRecord) :
    Twin h here m' (v.stored m' records) (w.landed d records') where
  memory := rfl
  host := ht.host
  faults := ht.faults
  faults' := ht.faults'
  tidy := htidy
  clean := hclean
  fits := ht.fits.becomes hb
  mirrors := hb.mirrors
  apart := by
    have hroot : d.tree.binding? h.root = some .directory := by
      simpa [m'.prefixClosed_pathMap.root, Binding.map] using hb.mirrors []
    refine ⟨?_, ?_, ht.apart.distinct, hb.distinct, ht.apart.directory, fun p hp => ?_⟩
    · rw [World.landed, hb.same]
      exact ht.apart.workingDirectory
    · rw [World.landed, hb.same]
      exact ht.apart.longestName
    · by_cases hpre : h.root <+: p
      · rw [hp hpre]
        exact ht.apart.directory.trans hroot.symm
      · exact (ht.apart.outside p hp).trans (hb.apart p hpre).symm
  here := by
    rw [World.landed, hb.same]
    exact ht.here

/-- Operations that change both stores as the map says end alike. -/
theorem ends_change (ht : Twin h here m v w) {x : Action World α} {refused : Prop}
    {update : PathMap} {answer : α → Prop} (hmemory : Store.Settles v m refused update answer x)
    (hspares : Store.Spares v m refused x)
    (hhost : Store.Lands w h m.pathMap refused update answer x) (hclean : ¬refused → update.Clean)
    (hanswer : ∀ a b, answer a → answer b → a = b) :
    (World.twins h here).Ends (fun a b => a = b ∧ True) (x.outcome v) (x.outcome w) := by
  obtain ⟨m', records, hv, htidy, hends⟩ := hmemory
  obtain ⟨d, records', hw, hlands⟩ := hhost
  have hspared : refused → m'.pathMap = m.pathMap := fun hr => hspares hr m' (by rw [hv]; rfl)
  generalize x.outcome v = out at hv hends
  generalize x.outcome w = out' at hw hlands
  obtain ⟨r, v'⟩ := out
  obtain ⟨r', w'⟩ := out'
  obtain rfl : v' = v.stored m' records := hv
  obtain rfl : w' = w.landed d records' := hw
  -- The map decides how both runs end, so they end in the same way.
  cases hends with
  | done hopen hmap ha =>
      cases hlands with
      | done _ hb hbecomes =>
          rw [← hmap] at hbecomes hclean
          exact .gave ⟨hanswer _ _ ha hb, trivial⟩
            ⟨m', ht.after htidy (hclean hopen) hbecomes records records'⟩
      | refused hr _ => exact absurd hr hopen
  | refused hr _ _ =>
      have hsame := hspared hr
      cases hlands with
      | done hopen _ _ => exact absurd hr hopen
      | refused _ hbecomes =>
          rw [← hsame] at hbecomes
          exact .failed (.inr trivial)
            ⟨m', ht.after htidy (hsame ▸ ht.clean) hbecomes records records'⟩
  | full => exact .excused ⟨_, _, rfl⟩

end World.Twin

namespace World

open Tie PipeShell.Action

variable {h : Host} {here : List Text} {path content : Text}

/-! ## Questions -/

theorem ends_answered {α : Type} {x : Action World α} {P : α → Prop} {v w : World}
    (hvw : (twins h here).states v w) {r r' : Except Failure α} (ho : x.outcome v = (r, v))
    (ho' : x.outcome w = (r', w)) (hr : (twins h here).SameAttempts r r' P) :
    (twins h here).Ends (fun a b => a = b ∧ P a) (x.outcome v) (x.outcome w) := by
  rw [ho, ho']
  rcases hr with ⟨a, rfl, rfl, ha⟩ | ⟨f, g, rfl, rfl, hfg⟩
  · exact .gave ⟨rfl, ha⟩ hvw
  · exact .failed hfg hvw

theorem alike_read (hp : Path.Fair path) :
    (twins h here).Alike (Store.read path) fun t => '\r' ∉ t := by
  rintro v w ⟨m, ht⟩
  refine ends_answered ⟨m, ht⟩ (Store.outcome_read ht.memory (Store.unbroken_of_faultless ht.faults) path)
    (Store.outcome_read_host ht.host ht.faults' path) ?_
  by_cases hfile : m.pathMap.IsFile (Path.segments path)
  · obtain ⟨text, htext⟩ := hfile
    have hplain := ht.clean.texts _ _ htext
    exact .inl ⟨text, Memory.read_eq_ok.mpr htext,
      Host.read_of_file ht.fits hp.plain ht.mirrors htext hplain, hplain⟩
  · obtain ⟨f, hf⟩ := Memory.exists_read_eq_error.mpr hfile
    obtain ⟨g, hg⟩ := Host.read_of_not_file ht.fits hp.plain ht.mirrors hfile
    exact .inr ⟨f, g, hf, hg, .inr trivial⟩

theorem alike_holds (hp : Path.Fair path) :
    (twins h here).Alike (Store.holds path) fun _ => True := by
  rintro v w ⟨m, ht⟩
  refine ends_answered ⟨m, ht⟩ (Store.outcome_holds ht.memory path)
    (Store.outcome_holds_host ht.host path) (.inl ⟨_, rfl, ?_, trivial⟩)
  rw [Host.holds_eq ht.fits hp.plain ht.mirrors, Except.ok.injEq, Bool.eq_iff_iff,
    decide_eq_true_iff, Memory.holds_iff]

theorem alike_isDirectory (hp : Path.Fair path) :
    (twins h here).Alike (Store.isDirectory path) fun _ => True := by
  rintro v w ⟨m, ht⟩
  refine ends_answered ⟨m, ht⟩ (Store.outcome_isDirectory ht.memory path)
    (Store.outcome_isDirectory_host ht.host path) (.inl ⟨_, rfl, ?_, trivial⟩)
  rw [Host.isDirectory_eq ht.fits hp.plain ht.mirrors, Except.ok.injEq, Bool.eq_iff_iff,
    decide_eq_true_iff, Memory.isDirectory_iff]

/-! ## Changes -/

theorem alike_write (hp : Path.Fair path) (hc : '\r' ∉ content) :
    (twins h here).Alike (Store.write path content) fun _ => True := by
  rintro v w ⟨m, ht⟩
  refine ht.ends_change (Store.settles_write ht.tidy ht.memory ht.faults path content)
    (Store.spares_write ht.memory ht.faults path content)
    (Store.lands_write ht.fits ht.mirrors m.prefixClosed_pathMap ht.host hp.plain ht.faults' content)
    (fun _ => ?_) fun _ _ _ _ => rfl
  exact ht.clean.bindFile hp.returnless hc

theorem alike_createFile (hp : Path.Fair path) (hc : '\r' ∉ content) :
    (twins h here).Alike (Store.createFile path content) fun _ => True := by
  rintro v w ⟨m, ht⟩
  refine ht.ends_change (Store.settles_createFile ht.tidy ht.memory path content)
    (Store.spares_createFile ht.tidy ht.memory path content)
    (Store.lands_createFile ht.fits ht.mirrors m.prefixClosed_pathMap ht.host hp.plain content)
    (fun _ => ?_) fun _ _ ha hb => ha.trans hb.symm
  exact ht.clean.create hp.returnless hc

theorem alike_createDirectory (hp : Path.Fair path) :
    (twins h here).Alike (Store.createDirectory path) fun _ => True := by
  rintro v w ⟨m, ht⟩
  refine ht.ends_change (Store.settles_createDirectory ht.tidy ht.memory path)
    (Store.spares_createDirectory ht.tidy ht.memory path)
    (Store.lands_createDirectory ht.fits ht.mirrors m.prefixClosed_pathMap ht.host hp.plain)
    (fun _ => ?_) fun _ _ ha hb => ha.trans hb.symm
  exact ht.clean.makeDirectories hp.returnless

theorem alike_deleteFile (hp : Path.Fair path) :
    (twins h here).Alike (Store.deleteFile path) fun _ => True := by
  rintro v w ⟨m, ht⟩
  refine ht.ends_change (Store.settles_deleteFile ht.tidy ht.memory ht.faults path)
    (Store.spares_deleteFile ht.tidy ht.memory ht.faults path)
    (Store.lands_deleteFile ht.fits ht.mirrors m.prefixClosed_pathMap ht.host hp.plain ht.faults')
    (fun _ => ?_) fun _ _ _ _ => rfl
  exact ht.clean.unbind _

theorem alike_deleteDirectory (hp : Path.Fair path) :
    (twins h here).Alike (Store.deleteDirectory path) fun _ => True := by
  rintro v w ⟨m, ht⟩
  refine ht.ends_change (Store.settles_deleteDirectory ht.tidy ht.memory path)
    (Store.spares_deleteDirectory ht.tidy ht.memory path)
    (Store.lands_deleteDirectory ht.fits ht.mirrors m.prefixClosed_pathMap ht.host hp.plain)
    (fun _ => ?_) fun _ _ _ _ => rfl
  exact ht.clean.unbindBelow _

theorem alike_clear : (twins h here).Alike Store.clear fun _ => True := by
  rintro v w ⟨m, ht⟩
  exact ht.ends_change (Store.settles_clear ht.memory) (fun hr => hr.elim)
    (Store.lands_clear ht.fits ht.mirrors m.prefixClosed_pathMap ht.host)
    (fun _ => PathMap.clean_bare) fun _ _ _ _ => rfl

/-! ## Moving -/

variable {source dest : Text}

theorem alike_copy (hs : Path.Fair source) (hd : Path.Fair dest) :
    (twins h here).Alike (Store.copy source dest) fun _ => True :=
  Tie.alike_copy (alike_isDirectory hs) (alike_read hs) fun _ hc => alike_createFile hd hc

/-- A copied file can be deleted at its source, so that no destination is ever put back. -/
theorem alike_transfer (hs : Path.Fair source) (hd : Path.Fair dest) (former : Option Text) :
    (twins h here).Alike (Store.transfer source dest former) fun _ => True := by
  rintro v w ⟨m, ht⟩
  have hcopied := alike_copy hs hd v w ⟨m, ht⟩
  obtain ⟨m', records, hv, -, hends⟩ :=
    Store.settles_copy ht.tidy ht.memory (Store.unbroken_of_faultless ht.faults) source dest
  rw [Store.transfer, outcome_bind, outcome_bind]
  generalize (Store.copy source dest).outcome v = out at hcopied hv hends
  generalize (Store.copy source dest).outcome w = out' at hcopied
  cases hcopied with
  | excused hf => exact .excused hf
  | failed hf hstates => exact .failed hf hstates
  | @gave _ _ v' w' _ hstates =>
      obtain ⟨m'', ht'⟩ := hstates
      have hsame : m'' = m' := by
        have hback := ht'.memory
        rw [show v' = v.stored m' records from hv] at hback
        cases hback
        rfl
      subst hsame
      have hfile : m''.pathMap.IsFile (Path.segments source) := by
        cases hends with
        | done hopen hmap _ =>
            rw [hmap]
            exact (Classical.not_not.mp fun hno => hopen (.inl hno)).copy _
      have hdeleted := alike_deleteFile hs v' w' ⟨m'', ht'⟩
      have ho := Store.outcome_deleteFile ht'.memory (Faults.not_refusesDeletion ht'.faults source)
      dsimp only
      rw [outcome_tryCatch, outcome_tryCatch]
      have he := Memory.deleteFile_ends ht'.tidy (Path.isSegment_segments source)
      cases hd : m''.deleteFile source with
      | error f =>
          rw [hd] at he
          exact absurd hfile he.1
      | ok left =>
          rw [hd] at ho
          rw [ho] at hdeleted ⊢
          generalize (Store.deleteFile source).outcome w' = out' at hdeleted
          cases hdeleted with
          | gave hsame hstates => exact .gave hsame hstates

theorem alike_move (hs : Path.Fair source) (hd : Path.Fair dest) :
    (twins h here).Alike (Store.move source dest) fun _ => True :=
  Store.alike_move_of (alike_isDirectory hs) (alike_holds hd) (alike_isDirectory hd)
    ((alike_read hd).mono fun _ _ => trivial) (alike_transfer hs hd)

end World

end PipeShell
