import PipeShell.Proofs.Store.Host
import PipeShell.Proofs.Store.Settled

/-!
# Tidy stores

Every operation of a store, with whatever faults, keeps the store tidy as long as its paths consist
of admitted names, and fails with one of its paths or with a path above it.
-/

namespace PipeShell

open PipeShell.Action

variable {admits : Text → Prop} {here : List Text} {path : Text}

/-! ## In memory -/

namespace Memory

variable {m : Memory}

theorem along_segments {here segments : List Text} {f : Failure}
    (hpre : here <+: segments) (hs : segments <+: Path.segments path)
    (hf : f.displayed = [Path.ofSegments here]) : f.Along path := by
  intro p hp
  rw [hf] at hp
  exact Or.inr ⟨here, hpre.trans hs, List.mem_singleton.mp hp⟩

theorem node_gives (m : Memory) (path : Text) :
    Attempt.Gives (m.node path) (fun n => m.tree.node? (Path.segments path) = some n)
      (Failure.Along path) := by
  refine Attempt.gives_of (fun n h => node_eq_ok.mp h) fun f h => ?_
  rw [node] at h
  cases hf : m.tree.find (Path.segments path) with
  | node n => simp [hf] at h
  | missing here =>
      obtain rfl : Failure.noSuchEntry (Path.ofSegments here) = f := by simpa [hf] using h
      exact along_segments (Folder.find_missing hf).1 List.prefix_rfl rfl
  | blocked here =>
      obtain rfl : Failure.notADirectory (Path.ofSegments here) = f := by simpa [hf] using h
      exact along_segments (Folder.find_blocked hf).1 List.prefix_rfl rfl

theorem read_gives (m : Memory) (path : Text) :
    Attempt.Gives (m.read path) (fun _ => True) (Failure.Along path) := by
  refine (node_gives m path).bind fun n _ => ?_
  cases n with
  | file content => exact Attempt.gives_ok trivial
  | folder inside => exact Attempt.gives_error (Failure.along_join rfl)

theorem directory_gives (hm : m.Tidy admits) (path : Text) :
    Attempt.Gives (m.directory path) (·.Tidy admits) (Failure.Along path) := by
  refine (node_gives m path).bind fun n hn => ?_
  cases n with
  | folder inside => exact Attempt.gives_ok (Folder.Tidy.node hm hn)
  | file content => exact Attempt.gives_error (Failure.along_join rfl)

theorem list_gives (hm : m.Tidy admits) (hp : ∀ s ∈ Path.segments path, admits s) :
    Attempt.Gives (m.list path) (fun es => ∀ e ∈ es, e.Admitted admits) (Failure.Along path) := by
  refine (directory_gives hm path).bind fun inside hinside => ?_
  refine Attempt.gives_ok fun e he => ?_
  obtain ⟨⟨names, content⟩, hn, rfl⟩ := List.mem_map.mp he
  obtain ⟨below, rfl, hb⟩ := hinside.entriesUnder hn
  have hnames : ∀ s ∈ Path.segments path ++ below, admits s := List.forall_mem_append.mpr ⟨hp, hb⟩
  exact ⟨StoreEntry.admits_getLastD hnames, _, hnames, rfl⟩

theorem write_gives (hm : m.Tidy admits) (hp : ∀ s ∈ Path.segments path, admits s)
    (content : Text) :
    Attempt.Gives (m.write path content) (·.Tidy admits) (Failure.Along path) := by
  have he := write_ends hm hp content
  refine Attempt.gives_of (fun m' h => ?_) fun f h => ?_
  · rw [h] at he
    exact he.2.2
  · rw [write] at h
    cases hr : m.read path with
    | error g =>
        obtain rfl : g = f := by simpa [hr] using h
        exact (read_gives m path).failed hr
    | ok former =>
        simp only [hr, Attempt.ok_bind] at h
        cases hq : m.checkQuota (Text.byteLength former) content with
        | ok u => simp [hq] at h
        | error g =>
            obtain rfl : g = f := by simpa [hq] using h
            obtain ⟨projected, rfl, _⟩ := checkQuota_eq_error hq
            exact Failure.along_silent rfl

theorem deleteFile_gives (hm : m.Tidy admits) (hp : ∀ s ∈ Path.segments path, admits s) :
    Attempt.Gives (m.deleteFile path) (·.Tidy admits) (Failure.Along path) := by
  refine (read_gives m path).bind fun _ _ => ?_
  exact Attempt.gives_ok (Folder.tidy_erase hm hp)

theorem deleteDirectory_gives (hm : m.Tidy admits) (hp : ∀ s ∈ Path.segments path, admits s) :
    Attempt.Gives (m.deleteDirectory path) (·.Tidy admits) (Failure.Along path) := by
  rw [deleteDirectory]
  split
  · exact Attempt.gives_error (Failure.along_silent rfl)
  · refine (directory_gives hm path).bind fun _ _ => ?_
    exact Attempt.gives_ok (Folder.tidy_erase hm hp)

theorem ensureDirectory_gives (hm : m.Tidy admits) {segments : List Text}
    (hs : segments <+: Path.segments path) (hp : ∀ s ∈ Path.segments path, admits s) :
    Attempt.Gives (m.ensureDirectory segments) (·.Tidy admits) (Failure.Along path) := by
  rw [ensureDirectory]
  split
  · exact Attempt.gives_error (along_segments List.prefix_rfl hs rfl)
  · rename_i hf
    exact Attempt.gives_error (along_segments (Folder.find_blocked hf).1 hs rfl)
  · exact Attempt.gives_ok (Folder.tidy_ensure hm fun s h => hp s (hs.subset h))
  · exact Attempt.gives_ok (Folder.tidy_ensure hm fun s h => hp s (hs.subset h))

theorem createDirectory_gives (hm : m.Tidy admits) (hp : ∀ s ∈ Path.segments path, admits s) :
    Attempt.Gives (m.createDirectory path) (·.2.Tidy admits) (Failure.Along path) := by
  rw [createDirectory]
  split
  · exact Attempt.gives_error (Failure.along_silent rfl)
  · refine (ensureDirectory_gives hm List.prefix_rfl hp).bind fun _ hmade => ?_
    exact Attempt.gives_ok hmade

theorem createFile_along (hm : m.Tidy admits) (hp : ∀ s ∈ Path.segments path, admits s)
    {content : Text} {f : Failure} (h : (m.createFile path content).1 = .error f) :
    f.Along path := by
  have hput (made : Memory) (replaced : Nat)
      (h : (made.put (Path.segments path) replaced content).1 = .error f) : f.Along path := by
    unfold put at h
    cases hq : made.checkQuota replaced content with
    | ok u => simp [hq] at h
    | error g =>
        obtain rfl : g = f := by simpa [hq] using h
        obtain ⟨projected, rfl, _⟩ := checkQuota_eq_error hq
        exact Failure.along_silent rfl
  by_cases hne : Path.segments path = []
  · obtain rfl : Failure.invalidFilePath path = f := by simpa [createFile, hne] using h
    exact Failure.along_self rfl
  · cases hr : m.ensureDirectory (Path.segments path).dropLast with
    | error g =>
        obtain rfl : g = f := by simpa [createFile, hne, hr] using h
        exact (ensureDirectory_gives hm (List.dropLast_prefix _) hp).failed hr
    | ok made =>
        rw [createFile_eq hne hr] at h
        split at h
        · cases h
          exact along_segments List.prefix_rfl List.prefix_rfl rfl
        · exact hput made _ h
        · exact hput made _ h

end Memory

/-! ## In a world -/

/-- Every name in the store is admitted, and no two entries of a directory share one, wherever the
store keeps its files. On disk the program runs in the directory at `here`. -/
def World.Tidy (admits : Text → Prop) (here : List Text) (w : World) : Prop :=
  match w.backing with
  | .memory m => m.Tidy admits
  | .host h => (∀ s ∈ h.root, admits s) ∧ w.disk.Tidy admits here
  | .abstract => True

namespace World

variable {α : Type} {P : α → Prop} {E : Failure → Prop}

theorem Tidy.congr {w w' : World} (h : w.Tidy admits here) (hb : w'.backing = w.backing)
    (hd : w'.disk = w.disk) : w'.Tidy admits here := by
  unfold World.Tidy at h ⊢
  rwa [hb, hd]

theorem tidy_memory {w : World} {m : Memory} (hw : w.backing = .memory m) :
    w.Tidy admits here ↔ m.Tidy admits := by
  simp [World.Tidy, hw]

theorem yields_note (level : LogLevel) (source : LogSource) (message : Text) :
    (note level source message).Yields (Tidy admits here) (fun _ => True) E :=
  yields_modify fun _ hw => hw.congr rfl rfl

theorem yields_countClear : countClear.Yields (Tidy admits here) (fun _ => True) E :=
  yields_modify fun _ hw => hw.congr rfl rfl

theorem yields_setMemory (w : World) {m : Memory} (hm : m.Tidy admits) :
    (set { w with backing := .memory m } : Action World PUnit).Yields (Tidy admits here)
      (fun _ => True) E :=
  yields_set (I := Tidy admits here) hm

theorem yields_onDisk {x : Action Disk α} (htidy : x.Yields (Disk.Tidy admits here) P E)
    (hany : x.Yields (fun _ => True) P E) : (onDisk x).Yields (Tidy admits here) P E := by
  refine yields_of_outcome fun w hw => ?_
  change Tidy admits here { w with disk := (x.outcome w.disk).2 }
    ∧ Attempt.Gives (x.outcome w.disk).1 P E
  cases hb : w.backing with
  | host h =>
      obtain ⟨hroot, hd⟩ : (∀ s ∈ h.root, admits s) ∧ w.disk.Tidy admits here := by
        simpa [World.Tidy, hb] using hw
      exact ⟨by simpa [World.Tidy] using ⟨hroot, htidy.kept _ hd⟩, htidy.result _ hd⟩
  | memory m => exact ⟨by simpa [World.Tidy, hb] using hw, hany.result _ trivial⟩
  | abstract => exact ⟨by simp [World.Tidy], hany.result _ trivial⟩

theorem yields_onStable {x : Action Disk α}
    (hx : ∀ I : Disk → Prop, Disk.Stable admits I → x.Yields I P E) :
    (onDisk x).Yields (Tidy admits here) P E :=
  yields_onDisk (hx _ (Disk.stable_tidy here)) (hx _ Disk.stable_true)

theorem yields_ask {memory : Memory → Except Failure α} {host : Host → Disk → Except Failure α}
    (hm : ∀ m, m.Tidy admits → Attempt.Gives (memory m) P E)
    (hh : ∀ h d, (∀ s ∈ h.root, admits s) → d.Tidy admits here → Attempt.Gives (host h d) P E)
    (he : E .notImplemented) : (ask memory host).Yields (Tidy admits here) P E := by
  refine yields_of_outcome fun w hw => ?_
  have htidy := hw
  simp only [World.Tidy] at hw
  simp only [outcome, ask]
  cases hb : w.backing with
  | memory m =>
      rw [hb] at hw
      exact ⟨htidy, hm m hw⟩
  | host h =>
      rw [hb] at hw
      exact ⟨htidy, hh h w.disk hw.1 hw.2⟩
  | abstract => exact ⟨htidy, he⟩

theorem yields_change {memory : Memory → Except Failure Memory} {host : Host → Action Disk Unit}
    (hm : ∀ m, m.Tidy admits → Attempt.Gives (memory m) (·.Tidy admits) E)
    (hh : ∀ h I, (∀ s ∈ h.root, admits s) → Disk.Stable admits I →
      (host h).Yields I (fun _ => True) E)
    (he : E .notImplemented) :
    (change memory host).Yields (Tidy admits here) (fun _ => True) E := by
  refine yields_of_outcome fun w hw => ?_
  have htidy := hw
  simp only [World.Tidy] at hw
  cases hb : w.backing with
  | memory m =>
      rw [hb] at hw
      simp only [outcome, change, hb]
      cases hr : memory m with
      | ok m' => exact ⟨(hm m hw).given hr, trivial⟩
      | error f => exact ⟨htidy, (hm m hw).failed hr⟩
  | host h =>
      rw [hb] at hw
      have hy : (onDisk (host h)).Yields (Tidy admits here) (fun _ => True) E :=
        yields_onStable fun I hI => hh h I hw.1 hI
      have ho : (change memory host).outcome w = (onDisk (host h)).outcome w := by
        simp only [outcome, change, hb]
      rw [ho]
      exact ⟨hy.kept w htidy, hy.result w htidy⟩
  | abstract =>
      simp only [outcome, change, hb]
      exact ⟨htidy, he⟩

end World

/-! ## Operations -/

namespace Store

variable (hp : ∀ s ∈ Path.segments path, admits s)

include hp

theorem yields_list :
    (list path).Yields (World.Tidy admits here) (fun es => ∀ e ∈ es, e.Admitted admits)
      (Failure.Along path) :=
  World.yields_ask (fun _ hm => Memory.list_gives hm hp) (fun _ _ hr hd => Host.list_gives hr hp hd)
    (Failure.along_silent rfl)

theorem yields_read :
    (read path).Yields (World.Tidy admits here) (fun _ => True) (Failure.Along path) := by
  refine yields_get.bind fun w hw => ?_
  split
  · exact yields_throw (Failure.along_silent rfl)
  · exact World.yields_ask (fun m _ => Memory.read_gives m path)
      (fun _ d hr _ => Host.read_gives hr hp d) (Failure.along_silent rfl)

theorem yields_holds :
    (holds path).Yields (World.Tidy admits here) (fun _ => True) (Failure.Along path) :=
  World.yields_ask (fun _ _ => Attempt.gives_ok trivial)
    (fun _ d hr _ => Host.holds_gives hr hp d) (Failure.along_silent rfl)

theorem yields_isDirectory :
    (isDirectory path).Yields (World.Tidy admits here) (fun _ => True) (Failure.Along path) :=
  World.yields_ask (fun _ _ => Attempt.gives_ok trivial)
    (fun _ d hr _ => Host.isDirectory_gives hr hp d) (Failure.along_silent rfl)

theorem yields_write (content : Text) :
    (write path content).Yields (World.Tidy admits here) (fun _ => True) (Failure.Along path) := by
  refine yields_get.bind fun w hw => ?_
  refine yields_ite (fun _ => yields_throw (Failure.along_silent rfl)) fun _ => ?_
  simp only [World.Tidy] at hw
  cases hb : w.backing with
  | memory m =>
      rw [hb] at hw
      refine (yields_liftM_except (Memory.write_gives hw hp content)).bind fun m' hm' => ?_
      exact (World.yields_setMemory w hm').bind fun _ _ => World.yields_note _ _ _
  | host h =>
      rw [hb] at hw
      refine (World.yields_onStable fun I hI => Host.yields_write hI hw.1 hp content).bind
        fun place _ => World.yields_note _ _ _
  | abstract => exact yields_throw (Failure.along_silent rfl)

theorem yields_createFile (content : Text) :
    (createFile path content).Yields (World.Tidy admits here) (fun _ => True)
      (Failure.Along path) := by
  refine yields_get.bind fun w hw => ?_
  simp only [World.Tidy] at hw
  cases hb : w.backing with
  | memory m =>
      rw [hb] at hw
      refine (World.yields_setMemory w (Memory.createFile_ends hw hp content).2).bind fun _ _ => ?_
      refine (yields_liftM_except (P := fun _ => True) ?_).bind fun e _ => ?_
      · exact Attempt.gives_of (fun _ _ => trivial) fun f hf => Memory.createFile_along hw hp hf
      · refine yields_ite (fun _ => yields_pure trivial) fun _ => ?_
        exact (World.yields_note _ _ _).bind fun _ _ => yields_pure trivial
  | host h =>
      rw [hb] at hw
      exact World.yields_onStable fun I hI => Host.yields_createFile hI hw.1 hp content
  | abstract => exact yields_throw (Failure.along_silent rfl)

theorem yields_createDirectory :
    (createDirectory path).Yields (World.Tidy admits here) (fun _ => True)
      (Failure.Along path) := by
  refine yields_get.bind fun w hw => ?_
  simp only [World.Tidy] at hw
  cases hb : w.backing with
  | memory m =>
      rw [hb] at hw
      refine (yields_liftM_except (Memory.createDirectory_gives hw hp)).bind fun made hmade => ?_
      exact (World.yields_setMemory w hmade).bind fun _ _ => yields_pure trivial
  | host h =>
      rw [hb] at hw
      exact World.yields_onStable fun I hI => Host.yields_createDirectory hI hw.1 hp
  | abstract => exact yields_throw (Failure.along_silent rfl)

theorem yields_deleteFile :
    (deleteFile path).Yields (World.Tidy admits here) (fun _ => True) (Failure.Along path) := by
  refine yields_get.bind fun w hw => ?_
  refine yields_ite (fun _ => yields_throw (Failure.along_silent rfl)) fun _ => ?_
  simp only [World.Tidy] at hw
  cases hb : w.backing with
  | memory m =>
      rw [hb] at hw
      refine (yields_liftM_except (Memory.deleteFile_gives hw hp)).bind fun m' hm' => ?_
      exact (World.yields_setMemory w hm').bind fun _ _ => World.yields_note _ _ _
  | host h =>
      rw [hb] at hw
      exact World.yields_onStable fun I hI => Host.yields_deleteFile hI hw.1 hp
  | abstract => exact yields_throw (Failure.along_silent rfl)

theorem yields_deleteDirectory :
    (deleteDirectory path).Yields (World.Tidy admits here) (fun _ => True) (Failure.Along path) :=
  World.yields_change (fun _ hm => Memory.deleteDirectory_gives hm hp)
    (fun _ _ hr hI => Host.yields_deleteDirectory hI hr hp) (Failure.along_silent rfl)

omit hp in
theorem yields_clear : clear.Yields (World.Tidy admits here) (fun _ => True) Failure.Silent :=
  World.yields_change (fun m _ => Attempt.gives_ok m.clear_tidy)
    (fun _ _ hr hI => Host.yields_clear hI hr) rfl

omit hp in
theorem yields_storageInfo :
    storageInfo.Yields (World.Tidy admits here) (fun _ => True) Failure.Silent := by
  refine yields_get.bind fun w _ => yields_ite (fun _ => yields_pure trivial) fun _ => ?_
  split <;> exact yields_pure trivial

/-! ## Copying and moving -/

omit hp

variable {source dest : Text}

theorem yields_copy (hs : ∀ s ∈ Path.segments source, admits s)
    (hd : ∀ s ∈ Path.segments dest, admits s) :
    (copy source dest).Yields (World.Tidy admits here) (fun _ => True)
      (fun f => f.Along source ∨ f.Along dest) := by
  have hl : ∀ f, Failure.Along source f → f.Along source ∨ f.Along dest := fun _ => Or.inl
  refine ((yields_isDirectory hs).mono (fun _ h => h) hl).bind fun b _ => ?_
  refine yields_ite (fun _ => yields_throw (Or.inl (Failure.along_self rfl))) fun _ => ?_
  refine ((yields_read hs).mono (fun _ h => h) hl).bind fun text _ => ?_
  exact (yields_createFile hd text).mono (fun _ h => h) fun _ => Or.inr

theorem yields_rollBack (hd : ∀ s ∈ Path.segments dest, admits s) (former : Option Text) :
    (rollBack dest former).Yields (World.Tidy admits here) (fun _ => True)
      (Failure.Along dest) := by
  refine Yields.tryCatch ?_ fun f (hf : f.Along dest) => ?_
  · cases former with
    | none => exact yields_deleteFile hd
    | some content => exact yields_write hd content
  · exact yields_ite (fun _ => World.yields_note _ _ _) fun _ => yields_throw hf

theorem yields_move (hs : ∀ s ∈ Path.segments source, admits s)
    (hd : ∀ s ∈ Path.segments dest, admits s) :
    (move source dest).Yields (World.Tidy admits here) (fun _ => True)
      (fun f => f.Along source ∨ f.Along dest) := by
  have hl : ∀ f, Failure.Along source f → f.Along source ∨ f.Along dest := fun _ => Or.inl
  have hr : ∀ f, Failure.Along dest f → f.Along source ∨ f.Along dest := fun _ => Or.inr
  refine yields_move_of (Or.inl (Failure.along_self rfl)) (fun _ => trivial)
    ((yields_isDirectory hs).mono (fun _ h => h) hl) ((yields_holds hd).mono (fun _ h => h) hr)
    (fun _ => (yields_isDirectory hd).mono (fun _ h => h) hr)
    (fun _ => (yields_read hd).mono (fun _ h => h) hr) fun former => ?_
  refine (yields_copy hs hd).bind fun _ _ => (yields_deleteFile hs).tryCatch fun f hf => ?_
  refine yields_ite (fun _ => ?_) fun _ => yields_throw (Or.inl hf)
  exact ((yields_rollBack hd former).mono (fun _ h => h) hr).bind fun _ _ =>
    yields_throw (Or.inl (Failure.along_sourceKept hf))

end Store

end PipeShell
