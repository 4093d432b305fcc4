import PipeShell.Proofs.Disk.Made
import PipeShell.Proofs.Store.Inside

/-!
# The bytes of copies

A store on disk copies a file as a text: what the source's bytes stand for is written anew, without
carriage returns. So a copy stands for the text that its source stands for, and is the source byte by
byte exactly when that has nothing to lose.
-/

namespace PipeShell

/-! ## Bytes of texts -/

namespace Text

variable {bytes : Bytes}

/-- Text read from bytes and written again. -/
def rewritten (bytes : Bytes) : Bytes :=
  encode (unifyNewlines (decode bytes))

/-- Only the bytes of a text without carriage returns are written again as they were. -/
theorem rewritten_eq_iff : rewritten bytes = bytes ↔ ∃ t, '\r' ∉ t ∧ encode t = bytes := by
  constructor
  · intro h
    exact ⟨unifyNewlines (decode bytes), not_mem_unifyNewlines _, h⟩
  · rintro ⟨t, hplain, rfl⟩
    rw [rewritten, decode_encode, unifyNewlines_of_not_mem hplain]

end Text

/-! ## Entries that stay -/

namespace Disk

open PipeShell.Action

variable {d d' d'' : Disk} {a : Address} {bytes : Bytes} {p : List Text}

/-- The disk keeps what was there, and may have more. -/
structure Extends (d d' : Disk) : Prop where
  distinct : d'.tree.Distinct
  kept : ∀ p b, d.tree.binding? p = some b → d'.tree.binding? p = some b

theorem Extends.refl (hd : d.tree.Distinct) : Extends d d :=
  ⟨hd, fun _ _ h => h⟩

theorem extends_makeDirectory {segments : List Text} (hd : Extends d d')
    (h : d'.makeDirectory segments = .ok d'') : Extends d d'' := by
  obtain ⟨rfl, hne, hdir, hfree⟩ := makeDirectory_eq_ok h
  refine ⟨Folder.tidy_alter hd.distinct (fun _ _ => trivial) fun _ n hn => ?_, fun q b hb => ?_⟩
  · cases hn
    trivial
  · rw [Folder.binding?_alter_folder hd.distinct hne hdir hfree]
    have hkept := hd.kept q b hb
    split
    · rename_i hq
      by_cases hsame : q = Path.walk segments
      · rw [hsame, hfree] at hkept
        cases hkept
      · rw [← hkept, Folder.directory_above hdir (Folder.prefix_dropLast hq hsame)]
    · exact hkept

theorem yields_ensureDirectory_extends (d : Disk) (a : Address) :
    (ensureDirectory a).Yields (Extends d) (fun _ => True) Failure.Silent :=
  yields_ensureDirectory_of_kept fun _ _ _ _ hd hm => extends_makeDirectory hd hm

/-- A file is written where no directory is, in an existing one. -/
theorem write_eq_ok (h : (write a bytes).outcome d = (.ok (), d')) :
    d' = { d with tree := d.tree.write (Path.walk (a.segmentsFrom d.workingDirectory)) bytes }
      ∧ d.tree.binding? (Path.walk (a.segmentsFrom d.workingDirectory)).dropLast = some .directory
      ∧ d.tree.binding? (Path.walk (a.segmentsFrom d.workingDirectory)) ≠ some .directory := by
  dsimp only [outcome, write] at h
  split at h
  · cases h
  · split at h
    · cases h
    · rename_i path hp
      obtain ⟨rfl, hdir⟩ := place_eq_ok hp
      split at h
      · cases h
      · rename_i hfile
        refine ⟨(congrArg Prod.snd h).symm, hdir, fun h => ?_⟩
        obtain ⟨inside, hn⟩ := Folder.binding?_eq_directory.mp h
        exact hfile inside hn

end Disk

namespace Host

open PipeShell.Action Disk

variable {h : Host} {d d' : Disk} {path content : Text} {place : List Text} {bytes : Bytes}
  {e : StoreEntry}

/-- The file at the path has these bytes. -/
def HasFile (h : Host) (d : Disk) (path : Text) (bytes : Bytes) : Prop :=
  ∃ place, h.target path = .ok place ∧ d.tree.binding? place = some (.file bytes)

/-- What is read is the text that the bytes of the file stand for. -/
theorem hasFile_of_read {t : Text} (hutf8 : h.encoding = .utf8) (hr : h.read d path = .ok t) :
    ∃ bytes, h.HasFile d path bytes ∧ t = Text.unifyNewlines (Text.decode bytes) := by
  rw [read] at hr
  cases he : h.existingFile d path with
  | error f => simp [he] at hr
  | ok found =>
      obtain ⟨place, bytes⟩ := found
      obtain ⟨htarget, hn⟩ := existingFile_eq_ok he
      rw [he, Attempt.ok_bind, hutf8] at hr
      exact ⟨bytes, ⟨place, htarget, Folder.binding?_eq_file.mpr hn⟩, (Except.ok.inj hr).symm⟩

/-! ## Created files -/

theorem yields_createDirectory_extends (path : Text) :
    (h.createDirectory path).Yields (Extends d) (fun _ => True) fun _ => True := by
  refine yields_ite (fun _ => yields_throw trivial) fun _ => ?_
  refine (yields_liftM_except (P := fun _ => True) ?_).bind fun place _ => ?_
  · exact Attempt.gives_of (fun _ _ => trivial) fun _ _ => trivial
  refine Yields.bind (P := fun _ => True) ?_ fun _ _ => yields_pure trivial
  refine (yields_ensureDirectory_extends d _).tryCatch fun f _ => ?_
  split <;> exact yields_throw trivial

theorem yields_makeAbove_extends (path : Text) :
    (h.makeAbove path).Yields (Extends d) (fun _ => True) fun _ => True :=
  yields_ite (fun _ => (yields_createDirectory_extends _).bind fun _ _ => yields_pure trivial)
    fun _ => yields_pure trivial

/-- The file is written where the path leads. -/
theorem putFile_eq_ok (hutf8 : h.encoding = .utf8)
    (ho : (h.putFile path content).outcome d = (.ok e, d')) :
    ∃ place, h.target path = .ok place
      ∧ d' = { d with tree := d.tree.write place (Text.encode content) }
      ∧ d.tree.binding? place.dropLast = some .directory
      ∧ d.tree.binding? place ≠ some .directory := by
  obtain ⟨place, d₁, hlift, ho⟩ := bind_eq_ok ho
  obtain ⟨htarget, rfl⟩ := liftM_eq_ok hlift
  obtain ⟨d₁, d₂, hget, ho⟩ := bind_eq_ok ho
  cases hget
  obtain ⟨directory, d₂, hdirectory, ho⟩ := bind_eq_ok ho
  obtain ⟨-, rfl⟩ := liftM_eq_ok hdirectory
  dsimp only at ho
  rw [outcome_ite] at ho
  split at ho
  · cases ho
  obtain ⟨_, d₂, hwrite, hentry⟩ := bind_eq_ok ho
  cases hentry
  have hwalk := Path.walk_of_forward (below_of_target htarget).forward
  rw [hutf8] at hwrite
  have hwritten := write_eq_ok hwrite
  rw [segmentsFrom_ofSegments, hwalk] at hwritten
  exact ⟨place, htarget, hwritten⟩

/-- A created file has the bytes of its content, and files at other places keep theirs. -/
theorem createFile_eq_ok (hutf8 : h.encoding = .utf8) (hd : d.tree.Distinct)
    (ho : (h.createFile path content).outcome d = (.ok e, d')) :
    d'.tree.Distinct ∧ h.HasFile d' path (Text.encode content)
      ∧ ∀ other bytes, h.target other ≠ h.target path → h.HasFile d other bytes →
        h.HasFile d' other bytes := by
  have hne : Path.segments path ≠ [] := by
    intro hnil
    simp [createFile, Path.parentAndName, hnil] at ho
  rw [createFile_eq hne] at ho
  obtain ⟨_, d₁, habove, hput⟩ := bind_eq_ok ho
  -- Directories are only made where nothing was, so every file stays where it is.
  have hextends := ((yields_makeAbove_extends path).of_ok (.refl hd) habove).1
  obtain ⟨place, htarget, rfl, hdir, hfile⟩ := putFile_eq_ok hutf8 hput
  have hplace : place ≠ [] := by
    rintro rfl
    exact hfile rfl
  have hwrite := Folder.binding?_write hextends.distinct hplace hdir hfile (Text.encode content)
  refine ⟨Folder.tidy_write hextends.distinct (fun _ _ => trivial) _, ⟨place, htarget, ?_⟩, ?_⟩
  · rw [hwrite, if_pos rfl]
  · rintro other bytes hother ⟨source, hsource, hbound⟩
    refine ⟨source, hsource, ?_⟩
    rw [hwrite, if_neg, hextends.kept source _ hbound]
    rintro rfl
    exact hother (hsource.trans htarget.symm)

/-- Deleting a file keeps the files at other places. -/
theorem deleteFile_eq_ok (hd : d.tree.Distinct) (ho : (h.deleteFile path).outcome d = (.ok (), d'))
    {other : Text} (hother : h.target path ≠ h.target other) (hfile : h.HasFile d other bytes) :
    h.HasFile d' other bytes := by
  rw [outcome_deleteFile] at ho
  cases he : h.existingFile d path with
  | error f => simp [he] at ho
  | ok found =>
      obtain ⟨gone, former⟩ := found
      obtain ⟨hgone, hn⟩ := existingFile_eq_ok he
      have hbound := Folder.binding?_eq_file.mpr hn
      have hne : gone ≠ [] := by
        rintro rfl
        cases hbound
      have hdir := Folder.binding?_dropLast (f := d.tree) (p := gone) (by simp [hbound])
      rw [he] at ho
      obtain rfl : d.erase gone = d' := congrArg Prod.snd ho
      obtain ⟨place, hplace, hfile⟩ := hfile
      refine ⟨place, hplace, ?_⟩
      -- The other file is not the deleted one, and nothing stands below a file.
      rw [Disk.erase, Folder.binding?_erase hd hne hdir, if_neg, hfile]
      intro hpre
      have hsame : gone ≠ place := by
        rintro rfl
        exact hother (hgone.trans hplace.symm)
      rw [Folder.binding?_below_file hpre hsame hbound] at hfile
      cases hfile

end Host

/-! ## Copies and moves -/

namespace Store

open PipeShell.Action

variable {w w' : World} {h : Host} {source dest : Text} {e : StoreEntry}

theorem read_host_eq_ok (hw : w.backing = .host h) {path t : Text}
    (ho : (read path).outcome w = (.ok t, w')) : h.read w.disk path = .ok t ∧ w = w' := by
  have hsame := outcome_read_snd path w
  rw [ho] at hsame
  refine ⟨?_, hsame.symm⟩
  simp only [read, outcome_bind, outcome_get] at ho
  split at ho
  · cases ho
  · simpa [World.ask, outcome, hw] using congrArg Prod.fst ho

theorem copy_host_eq_ok (hw : w.backing = .host h) (ho : (copy source dest).outcome w = (.ok e, w')) :
    ∃ t d', h.read w.disk source = .ok t
      ∧ (h.createFile dest t).outcome w.disk = (.ok e, d') ∧ w' = { w with disk := d' } := by
  obtain ⟨directory, w₁, hask, ho⟩ := bind_eq_ok ho
  rw [outcome_isDirectory_host hw] at hask
  obtain rfl : w = w₁ := congrArg Prod.snd hask
  dsimp only at ho
  rw [outcome_ite] at ho
  split at ho
  · cases ho
  obtain ⟨t, w₁, hask, ho⟩ := bind_eq_ok ho
  obtain ⟨hread, rfl⟩ := read_host_eq_ok hw hask
  rw [outcome_createFile_host hw, outcome_onDisk] at ho
  obtain ⟨hcreated, rfl⟩ := Prod.mk.inj ho
  exact ⟨t, _, hread, Prod.ext hcreated rfl, rfl⟩

theorem deleteFile_host_eq_ok (hw : w.backing = .host h) {path : Text}
    (ho : (deleteFile path).outcome w = (.ok (), w')) :
    ∃ d', (h.deleteFile path).outcome w.disk = (.ok (), d') ∧ w' = { w with disk := d' } := by
  simp only [deleteFile, outcome_bind, outcome_get, outcome_ite, hw] at ho
  split at ho
  · cases ho
  · rw [outcome_onDisk] at ho
    obtain ⟨hdeleted, rfl⟩ := Prod.mk.inj ho
    exact ⟨_, Prod.ext hdeleted rfl, rfl⟩

theorem transfer_eq_ok {former : Option Text}
    (ho : (transfer source dest former).outcome w = (.ok (), w')) :
    ∃ e w₁, (copy source dest).outcome w = (.ok e, w₁)
      ∧ (deleteFile source).outcome w₁ = (.ok (), w') := by
  obtain ⟨e, w₁, hcopy, ho⟩ := bind_eq_ok ho
  refine ⟨e, w₁, hcopy, ?_⟩
  rw [outcome_tryCatch] at ho
  generalize (deleteFile source).outcome w₁ = out at ho ⊢
  obtain ⟨r, w₂⟩ := out
  cases r with
  | ok u => exact ho
  | error f =>
      dsimp only at ho
      rw [outcome_ite] at ho
      split at ho
      · obtain ⟨_, _, _, hthrow⟩ := bind_eq_ok ho
        cases hthrow
      · cases ho

/-- A move between different paths transfers the file. -/
theorem move_host_eq_ok (hw : w.backing = .host h) (hne : source ≠ dest)
    (ho : (move source dest).outcome w = (.ok (), w')) :
    ∃ former, (transfer source dest former).outcome w = (.ok (), w') := by
  have hrest (isFile : Bool) (ho : (do
      let former ← if isFile then some <$> read dest else pure none
      transfer source dest former : Action World Unit).outcome w = (.ok (), w')) :
      ∃ former, (transfer source dest former).outcome w = (.ok (), w') := by
    cases isFile with
    | false => exact ⟨none, ho⟩
    | true =>
        obtain ⟨former, w₁, hask, ho⟩ := bind_eq_ok ho
        obtain ⟨t, w₂, hask, hsome⟩ := bind_eq_ok hask
        obtain ⟨-, rfl⟩ := read_host_eq_ok hw hask
        cases hsome
        exact ⟨some t, ho⟩
  obtain ⟨directory, w₁, hask, ho⟩ := bind_eq_ok ho
  rw [outcome_isDirectory_host hw] at hask
  obtain rfl : w = w₁ := congrArg Prod.snd hask
  dsimp only at ho
  rw [outcome_ite, if_neg hne] at ho
  split at ho
  · cases ho
  obtain ⟨held, w₁, hask, ho⟩ := bind_eq_ok ho
  rw [outcome_holds_host hw] at hask
  obtain rfl : w = w₁ := congrArg Prod.snd hask
  cases held with
  | false => exact hrest false ho
  | true =>
      obtain ⟨inner, w₁, hask, ho⟩ := bind_eq_ok ho
      rw [outcome_isDirectory_host hw] at hask
      obtain rfl : w = w₁ := congrArg Prod.snd hask
      exact hrest (!inner) ho

/-- A copied file has the bytes that its source's text is written with, and the source keeps its
own. -/
theorem hasFile_copy (hw : w.backing = .host h) (hutf8 : h.encoding = .utf8)
    (hd : w.disk.tree.Distinct) (hne : h.target source ≠ h.target dest)
    (ho : (copy source dest).outcome w = (.ok e, w')) :
    w'.backing = .host h ∧ w'.disk.tree.Distinct ∧ ∃ bytes, h.HasFile w.disk source bytes
      ∧ h.HasFile w'.disk dest (Text.rewritten bytes) ∧ h.HasFile w'.disk source bytes := by
  obtain ⟨t, d', hread, hcreate, rfl⟩ := copy_host_eq_ok hw ho
  obtain ⟨bytes, hsource, rfl⟩ := Host.hasFile_of_read hutf8 hread
  obtain ⟨hd', hdest, hkept⟩ := Host.createFile_eq_ok hutf8 hd hcreate
  exact ⟨hw, hd', bytes, hsource, hdest, hkept source bytes hne hsource⟩

theorem hasFile_move (hw : w.backing = .host h) (hutf8 : h.encoding = .utf8)
    (hd : w.disk.tree.Distinct) (hne : h.target source ≠ h.target dest)
    (ho : (move source dest).outcome w = (.ok (), w')) :
    ∃ bytes, h.HasFile w.disk source bytes ∧ h.HasFile w'.disk dest (Text.rewritten bytes) := by
  have hpath : source ≠ dest := fun h => hne (by rw [h])
  obtain ⟨former, ho⟩ := move_host_eq_ok hw hpath ho
  obtain ⟨e, w₁, hcopy, hdelete⟩ := transfer_eq_ok ho
  obtain ⟨hw₁, hd₁, bytes, hsource, hdest, -⟩ := hasFile_copy hw hutf8 hd hne hcopy
  obtain ⟨d', hdeleted, rfl⟩ := deleteFile_host_eq_ok hw₁ hdelete
  exact ⟨bytes, hsource, Host.deleteFile_eq_ok hd₁ hdeleted hne hdest⟩

/-- A file that is copied or moved to another place on disk stands for the text that its source
stands for: it has the bytes with which that text is written. These are the source's own bytes
exactly when they are those of a text without carriage returns. A copy leaves its source as it is. -/
theorem copied_bytes (hw : w.backing = .host h) (hutf8 : h.encoding = .utf8)
    (hd : w.disk.tree.Distinct) (hne : h.target source ≠ h.target dest) :
    (∀ e w', (copy source dest).outcome w = (.ok e, w') →
        ∃ bytes, h.HasFile w.disk source bytes ∧ h.HasFile w'.disk dest (Text.rewritten bytes)
          ∧ h.HasFile w'.disk source bytes)
      ∧ (∀ w', (move source dest).outcome w = (.ok (), w') →
        ∃ bytes, h.HasFile w.disk source bytes ∧ h.HasFile w'.disk dest (Text.rewritten bytes))
      ∧ (∀ bytes, Disk.textOf .utf8 (Text.rewritten bytes) = Disk.textOf .utf8 bytes)
      ∧ ∀ bytes, Text.rewritten bytes = bytes ↔ ∃ t, '\r' ∉ t ∧ Text.encode t = bytes := by
  refine ⟨fun e w' ho => (hasFile_copy hw hutf8 hd hne ho).2.2,
    fun w' ho => hasFile_move hw hutf8 hd hne ho, fun bytes => ?_, fun bytes => Text.rewritten_eq_iff⟩
  rw [Text.rewritten, Disk.textOf_encode (Text.not_mem_unifyNewlines _)]
  rfl

/-- The store of UTF-8 files in the directory `r`. -/
def plainHost : Host :=
  ⟨.ofSegments [['r']], [['r']], .utf8, 0⟩

/-- The store holds one file, with these bytes. -/
def single (bytes : Bytes) : World where
  backing := .host plainHost
  disk := { tree := .folder ['r'] (.file ['a'] bytes .empty) .empty }

/-- The bytes of a text without carriage returns are moved as they are. -/
theorem copied_bytes_plain : ∃ w', (move ['a'] ['b']).outcome (single [0x78, 0x0A]) = (.ok (), w')
    ∧ plainHost.HasFile w'.disk ['b'] [0x78, 0x0A] := by
  have hd : (single [0x78, 0x0A]).disk.tree.Distinct := by simp [single, Folder.Tidy]
  have hne : plainHost.target ['a'] ≠ plainHost.target ['b'] := by decide
  obtain ⟨-, hmove, -, hsame⟩ := copied_bytes rfl rfl hd hne
  obtain ⟨bytes, ⟨place, hplace, hsource⟩, hdest⟩ := hmove _ rfl
  obtain rfl : [['r'], ['a']] = place := Except.ok.inj hplace
  obtain rfl : [0x78, 0x0A] = bytes := Binding.file.inj (Option.some.inj hsource)
  rw [(hsame [0x78, 0x0A]).mpr ⟨['x', '\n'], by decide, rfl⟩] at hdest
  exact ⟨_, rfl, hdest⟩

/-- A byte that is no character is copied as the replacement character. -/
theorem copied_byte_replaced : ∃ w', (copy ['a'] ['b']).outcome (single [0xFF])
      = (.ok ⟨['b'], ['b'], false⟩, w')
    ∧ plainHost.HasFile (single [0xFF]).disk ['a'] [0xFF]
    ∧ plainHost.HasFile w'.disk ['b'] [0xEF, 0xBF, 0xBD]
    ∧ ¬plainHost.HasFile w'.disk ['b'] [0xFF] := by
  refine ⟨_, rfl, ⟨_, rfl, rfl⟩, ⟨_, rfl, rfl⟩, ?_⟩
  rintro ⟨place, hplace, hfile⟩
  obtain rfl : [['r'], ['b']] = place := Except.ok.inj hplace
  cases hfile

end Store

end PipeShell
