import PipeShell.Proofs.Store.Escapes
import PipeShell.Proofs.Store.Requests
import PipeShell.Store.Setup

/-!
# Stores keep to their root

Whatever is asked of a store on disk, nothing outside of its root changes or shows in an answer. A
path that leads out of the root is refused, and nothing changes inside of it either.
-/

namespace PipeShell

open PipeShell.Action

/-! ## Opened stores -/

/-- A store is opened at a path without `..`, where there is a directory then. -/
theorem Host.openAt_eq_ok {a : Address} {encoding : Encoding} {free : Nat} {start d : Disk}
    {h : Host} (hd : start.tree.Distinct)
    (ho : (Host.openAt a encoding free).outcome start = (.ok h, d)) :
    Disk.Below h.root h.root ∧ d.tree.Distinct ∧ d.tree.binding? h.root = some .directory := by
  dsimp only [outcome, Host.openAt] at ho
  split at ho
  · cases ho
  · rename_i opened hmade
    cases ho
    obtain ⟨hdistinct, hdir⟩ := Disk.binding_of_ensureDirectory hd hmade
    exact ⟨⟨List.prefix_rfl, fun s hs => (Path.mem_walk hs).2⟩, hdistinct, hdir⟩

theorem World.ofHost_eq_ok {a : Address} {encoding : Encoding} {free : Nat} {faults : Faults}
    {start : Disk} {w : World} (hw : World.ofHost a encoding free faults start = .ok w) :
    ∃ h d, (Host.openAt a encoding free).outcome start = (.ok h, d)
      ∧ w = { backing := .host h, faults, disk := d } := by
  rw [World.ofHost] at hw
  split at hw
  · rename_i h d ho
    exact ⟨h, d, ho, (Except.ok.inj hw).symm⟩
  · cases hw

/-! ## Requests that are declined -/

namespace Request

/-- The request changes nothing and fails for such a cause. -/
def FailsFor (cause : Failure → Prop) (w : World) (r : Request) : Prop :=
  ∃ f, r.run.outcome w = (.error f, w) ∧ cause f

/-- How a store ends a request with a path that leads out of it: nothing changes. When another path
of a copy or of a move cannot be read, that may be the failure. -/
def Declined (w : World) : Request → Prop
  | holds path => (holds path).run.outcome w = (.ok (.flag false), w)
  | isDirectory path => (isDirectory path).run.outcome w = (.ok (.flag false), w)
  | copy source dest => (copy source dest).FailsFor (fun f => f.kind = .invalidOperation
      ∨ (Store.read source).outcome w = (.error f, w)) w
  | move source dest =>
      if source = dest then (move source dest).run.outcome w = (.ok .done, w)
      else (move source dest).FailsFor (fun f => f.kind = .invalidOperation
        ∨ (Store.read source).outcome w = (.error f, w)
        ∨ (Store.read dest).outcome w = (.error f, w)
          ∧ (Store.holds dest).outcome w ≠ (.ok false, w)) w
  | r => r.FailsFor (·.kind = .invalidOperation) w

end Request

namespace Store

variable {h : Host} {w : World} {path source dest : Text} {E : Failure → Prop}

section Questions

variable (hw : w.backing = .host h) (he : ∀ f, h.read w.disk path = .error f → E f)
include hw he

theorem yields_isDirectory_at : (isDirectory path).Yields (· = w) (fun _ => True) E :=
  yields_at (outcome_isDirectory_host hw path)
    (Attempt.gives_of (fun _ _ => trivial) fun f hf =>
      he f (Host.read_of_probe (Host.probe_of_isDirectory hf)))

theorem yields_read_at (hfaults : w.faults = {}) :
    (read path).Yields (· = w) (fun text => h.read w.disk path = .ok text) E :=
  yields_at (outcome_read_host hw hfaults path) (Attempt.gives_of (fun _ h => h) he)

end Questions

variable (hw : w.backing = .host h) (hfaults : w.faults = {}) (hroot : Disk.Below h.root h.root)
  (hheld : h.holds w.disk [] = .ok true)
  (hnull : ∀ path ∈ [source, dest], ∀ s ∈ Path.segments path, '\x00' ∉ s)
  (hout : ∃ path ∈ [source, dest], h.Escapes path)
include hw hfaults hroot hheld hnull hout

theorem yields_copy_out (hkind : ∀ f, f.kind = .invalidOperation → E f)
    (he : ∀ f, h.read w.disk source = .error f → E f) :
    (copy source dest).Yields (· = w) (fun _ => False) E := by
  refine (yields_isDirectory_at hw he).bind fun found _ => ?_
  refine yields_ite (fun _ => yields_throw (hkind _ rfl)) fun _ => ?_
  refine (yields_read_at hw he hfaults).bind fun content hread => ?_
  have hdest : h.Escapes dest := by
    obtain ⟨path, hpath, hescapes⟩ := hout
    rcases List.mem_pair.mp hpath with rfl | rfl
    · rw [Host.read_of_escapes (hnull path (by simp)) hescapes] at hread
      cases hread
    · exact hescapes
  obtain ⟨f, ho, hf⟩ := Host.outcome_createFile_of_escapes (hnull dest (by simp)) hdest hroot hheld
    content
  have hcreate : (createFile dest content).outcome w = (.error f, w) := by
    rw [outcome_createFile_host hw, outcome_onDisk, ho]
  exact yields_at hcreate (hkind f hf)

theorem yields_move_out (hne : source ≠ dest) (hkind : ∀ f, f.kind = .invalidOperation → E f)
    (he : ∀ f, h.read w.disk source = .error f → E f)
    (he' : ∀ f, h.read w.disk dest = .error f → h.holds w.disk dest ≠ .ok false → E f) :
    (move source dest).Yields (· = w) (fun _ => False) E := by
  have hholds : (holds dest).Yields (· = w) (fun held => h.holds w.disk dest = .ok held) E := by
    refine yields_at (outcome_holds_host hw dest) (Attempt.gives_of (fun _ h => h) fun f hf => ?_)
    exact he' f (Host.read_of_probe (Host.probe_of_holds hf)) (by simp [hf])
  have hdest (hheld : h.holds w.disk dest = .ok true) (f : Failure)
      (hf : h.read w.disk dest = .error f) : E f := he' f hf (by simp [hheld])
  have hcopy := yields_copy_out hw hfaults hroot hheld hnull hout hkind he
  exact yields_move_of (hkind _ rfl) (fun h => absurd h hne) (yields_isDirectory_at hw he) hholds
    (fun h => yields_isDirectory_at hw (hdest h))
    (fun h => (yields_read_at hw (hdest h) hfaults).mono (fun _ _ => trivial) fun _ h => h)
    fun former => hcopy.bind fun _ h => h.elim

end Store

namespace Request

variable {h : Host} {w : World}

theorem outcome_answered {α : Type} {x : Action World α} {answer : α → Answer} {f : Failure}
    (ho : x.outcome w = (.error f, w)) : (answer <$> x).outcome w = (.error f, w) := by
  rw [outcome_map, ho]
  rfl

theorem failsFor_escapes {α : Type} {x : Action World α} {answer : α → Answer} (path : Text)
    (ho : x.outcome w = (.error (.escapesRoot path), w)) :
    ∃ f, (answer <$> x).outcome w = (.error f, w) ∧ f.kind = .invalidOperation :=
  ⟨_, outcome_answered ho, rfl⟩

theorem outcome_onDisk_error {α : Type} {x : Action World α} {y : Action Disk α} {f : Failure}
    (ho : x.outcome w = (World.onDisk y).outcome w) (hy : y.outcome w.disk = (.error f, w.disk)) :
    x.outcome w = (.error f, w) := by
  rw [ho, Store.outcome_onDisk, hy]

section Declined

variable (hw : w.backing = .host h) (hfaults : w.faults = {}) (hroot : Disk.Below h.root h.root)
  (hheld : h.holds w.disk [] = .ok true)
include hw hfaults hroot hheld

section Pairs

variable {source dest : Text}
  (hnull : ∀ path ∈ [source, dest], ∀ s ∈ Path.segments path, '\x00' ∉ s)
  (hout : ∃ path ∈ [source, dest], h.Escapes path)
include hnull hout

theorem declined_copy : (copy source dest).Declined w := by
  have hyields : (Store.copy source dest).Yields (· = w) (fun _ => False) fun f =>
      f.kind = .invalidOperation ∨ (Store.read source).outcome w = (.error f, w) := by
    refine Store.yields_copy_out hw hfaults hroot hheld hnull hout (fun _ => .inl) ?_
    exact fun f hf => .inr (by rw [Store.outcome_read_host hw hfaults, hf])
  obtain ⟨f, ho, hf⟩ := hyields.failure
  exact ⟨f, outcome_answered ho, hf⟩

theorem declined_move : (move source dest).Declined w := by
  rw [Declined]
  by_cases hsame : source = dest
  · rw [if_pos hsame]
    subst hsame
    obtain ⟨path, hpath, he⟩ := hout
    obtain rfl : path = source := by simpa using hpath
    simp [run, Store.move, outcome_bind, Store.outcome_isDirectory_host hw,
      Host.isDirectory_of_escapes (hnull path (by simp)) he]
  · rw [if_neg hsame]
    -- A move asks about its paths before it changes anything, and one question fails.
    have hyields : (Store.move source dest).Yields (· = w) (fun _ => False) fun f =>
        f.kind = .invalidOperation ∨ (Store.read source).outcome w = (.error f, w)
          ∨ (Store.read dest).outcome w = (.error f, w)
            ∧ (Store.holds dest).outcome w ≠ (.ok false, w) := by
      refine Store.yields_move_out hw hfaults hroot hheld hnull hout hsame (fun _ => .inl) ?_ ?_
      · exact fun f hf => .inr (.inl (by rw [Store.outcome_read_host hw hfaults, hf]))
      · refine fun f hf hh => .inr (.inr ⟨?_, ?_⟩)
        · rw [Store.outcome_read_host hw hfaults, hf]
        · rw [Store.outcome_holds_host hw]
          exact fun heq => hh (congrArg Prod.fst heq)
    obtain ⟨f, ho, hf⟩ := hyields.failure
    exact ⟨f, outcome_answered ho, hf⟩

end Pairs

/-- A request with a path that leads out of the store is declined while the root is there. -/
theorem declined (r : Request) (hnull : ∀ path ∈ r.paths, '\x00' ∉ path)
    (hout : ∃ path ∈ r.paths, h.Escapes path) : r.Declined w := by
  have hnull (path : Text) (hpath : path ∈ r.paths) : ∀ s ∈ Path.segments path, '\x00' ∉ s :=
    fun s hs hc => hnull path hpath (Path.mem_of_mem_segments hs hc)
  have single (path : Text) (hpaths : r.paths = [path]) :
      (∀ s ∈ Path.segments path, '\x00' ∉ s) ∧ h.Escapes path := by
    obtain ⟨other, hother, he⟩ := hout
    obtain rfl : other = path := List.mem_singleton.mp (hpaths ▸ hother)
    exact ⟨hnull other hother, he⟩
  cases r with
  | list path =>
      obtain ⟨hn, he⟩ := single path rfl
      refine failsFor_escapes path ?_
      rw [Store.outcome_list_host hw, Host.list_of_escapes hn he]
  | read path =>
      obtain ⟨hn, he⟩ := single path rfl
      refine failsFor_escapes path ?_
      rw [Store.outcome_read_host hw hfaults, Host.read_of_escapes hn he]
  | holds path =>
      obtain ⟨hn, he⟩ := single path rfl
      rw [Declined, run, outcome_map, Store.outcome_holds_host hw, Host.holds_of_escapes hn he]
      rfl
  | isDirectory path =>
      obtain ⟨hn, he⟩ := single path rfl
      rw [Declined, run, outcome_map, Store.outcome_isDirectory_host hw,
        Host.isDirectory_of_escapes hn he]
      rfl
  | write path content =>
      obtain ⟨hn, he⟩ := single path rfl
      refine failsFor_escapes path ?_
      rw [Store.outcome_write_host hw hfaults, outcome_bind, Store.outcome_onDisk,
        Host.outcome_write_of_escapes hn he]
  | createFile path content =>
      obtain ⟨hn, he⟩ := single path rfl
      obtain ⟨f, ho, hkind⟩ := Host.outcome_createFile_of_escapes hn he hroot hheld content
      refine ⟨f, outcome_answered ?_, hkind⟩
      exact outcome_onDisk_error (Store.outcome_createFile_host hw path content) ho
  | createDirectory path =>
      obtain ⟨hn, he⟩ := single path rfl
      refine failsFor_escapes path ?_
      exact outcome_onDisk_error (Store.outcome_createDirectory_host hw path)
        (Host.outcome_createDirectory_of_escapes hn he hroot _)
  | deleteFile path =>
      obtain ⟨hn, he⟩ := single path rfl
      refine failsFor_escapes path ?_
      exact outcome_onDisk_error (Store.outcome_deleteFile_host hw hfaults path)
        (Host.outcome_deleteFile_of_escapes hn he _)
  | deleteDirectory path =>
      obtain ⟨hn, he⟩ := single path rfl
      refine failsFor_escapes path ?_
      exact outcome_onDisk_error (Store.outcome_deleteDirectory_host hw path)
        (Host.outcome_deleteDirectory_of_escapes hn he hroot _)
  | copy source dest => exact declined_copy hw hfaults hroot hheld hnull hout
  | move source dest => exact declined_move hw hfaults hroot hheld hnull hout
  | storageInfo => simp [paths] at hout
  | clear => simp [paths] at hout

end Declined

/-- From an opened store on, whatever is asked of it, nothing outside of its root changes. What is
outside does not show either: on any other disk that holds the same at the root the answers are
equal, and in the end so are the worlds but for the disk, and the disks at the root. While the root
is there, requests with a path that leads out of it are declined. -/
theorem confined {a : Address} {encoding : Encoding} {free : Nat} {start : Disk}
    (hd : start.tree.Distinct) (hopen : World.ofHost a encoding free {} start = .ok w)
    (hw : w.backing = .host h) (requests : List Request) :
    (∀ p, ¬h.root <+: p →
        (runAll requests w).2.disk.tree.binding? p = w.disk.tree.binding? p)
      ∧ (∀ other, Disk.SameInside h.root w.disk other →
        (runAll requests { w with disk := other }).1 = (runAll requests w).1
          ∧ ∃ d, (runAll requests { w with disk := other }).2
              = { (runAll requests w).2 with disk := d }
            ∧ d.tree.node? h.root = (runAll requests w).2.disk.tree.node? h.root)
      ∧ (h.holds (runAll requests w).2.disk [] = .ok true →
        ∀ r : Request, (∀ path ∈ r.paths, '\x00' ∉ path) → (∃ path ∈ r.paths, h.Escapes path) →
          r.Declined (runAll requests w).2) := by
  obtain ⟨opened, d, ho, rfl⟩ := World.ofHost_eq_ok hopen
  obtain rfl : opened = h := by simpa using hw
  obtain ⟨hroot, hdistinct, hdir⟩ := Host.openAt_eq_ok hd ho
  have hstates (other : Disk) (hsame : Disk.SameInside opened.root d other) :
      (World.inside opened d other).states { backing := .host opened, disk := d }
        { backing := .host opened, disk := other } :=
    ⟨rfl, rfl, rfl, hsame, .refl _ _, .refl _ _⟩
  obtain ⟨-, -, hback, hfaults, -, hkept, -⟩ :=
    runAll_same hroot requests (hstates d (Disk.sameInside_self hdistinct hdir))
  refine ⟨hkept.outside, fun other hsame => ?_, fun hheld r hnull hout => ?_⟩
  · obtain ⟨hseen, hworld, -, -, hinside, -⟩ := runAll_same hroot requests (hstates other hsame)
    exact ⟨hseen.symm, _, hworld, hinside.inside.symm⟩
  · exact declined hback hfaults hroot hheld r hnull hout

/-- A disk with a directory for a store, and beside it one whose name starts alike. -/
def neighbours (secret : Text) : Disk where
  tree := .folder "s" (.file "f" (Text.encode "text") .empty)
    (.folder "s2" (.file "k" (Text.encode secret) .empty) .empty)

/-- The store in the first of the two directories. -/
def beside (secret : Text) : World :=
  { backing := .host ⟨.ofSegments ["s"], ["s"], .utf8, 0⟩, disk := neighbours secret }

theorem distinct_neighbours (secret : Text) : (neighbours secret).tree.Distinct := by
  simp [neighbours, Folder.Distinct, Folder.Tidy, Folder.child?]

theorem sameInside_neighbours (secret other : Text) :
    Disk.SameInside ["s"] (neighbours secret) (neighbours other) where
  longestName := rfl
  distinct := distinct_neighbours secret
  distinct' := distinct_neighbours other
  above p hp hne := by
    rcases List.prefix_cons_iff.mp hp with rfl | ⟨below, rfl, hbelow⟩
    · exact ⟨rfl, rfl⟩
    · exact absurd (by rw [List.prefix_nil.mp hbelow]) hne
  inside := rfl

/-- Neither copies nor new files reach the directory beside the store, though a file is made in the
store on the way. -/
theorem confined_neighbours :
    let requests : List Request :=
      [.copy "../s2/k" "c", .createFile "../s2/f" "new", .createFile "d/../e" "new", .list ""]
    (runAll requests (beside "secret")).2.disk.tree.binding? ["s2", "k"]
        = some (.file (Text.encode "secret"))
      ∧ (runAll requests (beside "secret")).2.disk.tree.binding? ["s", "e"]
        = some (.file (Text.encode "new"))
      ∧ (runAll requests (beside "public")).1 = (runAll requests (beside "secret")).1
      ∧ (move "f" "../s2/f").Declined (runAll requests (beside "secret")).2 := by
  intro requests
  have hopen : World.ofHost (.ofSegments ["s"]) .utf8 0 {} (neighbours "secret")
      = .ok (beside "secret") := rfl
  obtain ⟨hkept, hseen, hdeclined⟩ :=
    confined (distinct_neighbours "secret") hopen rfl requests
  refine ⟨?_, rfl, (hseen _ (sameInside_neighbours "secret" "public")).1, ?_⟩
  · rw [hkept ["s2", "k"] (by decide)]
    rfl
  · refine hdeclined (by decide +kernel) _ (by decide) ?_
    exact ⟨"../s2/f", by decide, by decide⟩

/-- A copy out of the store does not always fail as an invalid operation: a missing source is missed
first. -/
theorem copy_out_not_invalid :
    ¬∀ (a : Address) (start : Disk) (w : World) (h : Host) (source dest : Text),
      start.tree.Distinct → World.ofHost a .utf8 0 {} start = .ok w → w.backing = .host h →
      h.holds w.disk [] = .ok true → '\x00' ∉ source → '\x00' ∉ dest → h.Escapes dest →
      (copy source dest).FailsFor (·.kind = .invalidOperation) w := by
  intro hall
  obtain ⟨f, ho, hkind⟩ := hall (.ofSegments ["s"]) (neighbours "secret") (beside "secret") _
    "missing" "../x" (distinct_neighbours "secret") rfl rfl rfl (by decide) (by decide) (by decide)
  have hmissing : (copy "missing" "../x").run.outcome (beside "secret")
      = (.error (.noSuchEntry "missing"), beside "secret") := rfl
  rw [hmissing] at ho
  cases ho
  cases hkind

end Request

end PipeShell