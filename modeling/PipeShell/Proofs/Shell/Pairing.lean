import PipeShell.Proofs.Pipeline.Letters
import PipeShell.Proofs.Shell.Stage
import PipeShell.Proofs.Store.Tie
import PipeShell.Shell.HostNames

/-!
# Pairs of shells

Two shells that run side by side, with worlds that are related in some way. What a pairing has to
provide for the operations of the world, the commands then have as well.
-/

namespace PipeShell

open Command

/-- What is compared of two shells with a picker, and what may come up while they run: the characters
of the arguments and of all that is shown, the store paths, the names of picked files, and the
addresses on the host that a verb touches. -/
structure Pairing where
  picker : Option Picker
  worlds : World → World → Prop
  shells : Shell → Shell → Prop
  lax : Prop
  excused : Failure → Prop
  named : Char → Prop
  shown : Char → Prop
  path : Text → Prop
  picked : Text → Prop
  near : Verb → Address → Prop

namespace Pairing

/-- The comparison of the worlds. -/
def world (p : Pairing) : Tie World :=
  ⟨p.worlds, p.lax, p.excused⟩

/-- The comparison of the shells in their worlds. -/
def state (p : Pairing) : Tie ShellState :=
  ⟨fun s t => p.shells s.shell t.shell ∧ p.worlds s.world t.world, p.lax, p.excused⟩

/-- Two listings of a store that differ in the order of their entries at most. -/
structure SameListing (p : Pairing) (es es' : List StoreEntry) : Prop where
  length : es.length = es'.length
  children (directory : Text) :
    ordered (childrenOf directory es) = ordered (childrenOf directory es')
  shown : ∀ e ∈ es, e.name.Within p.shown ∧ e.path.Within p.shown

/-- What commands that only ask the store rely on. -/
structure Lawful (p : Pairing) : Prop where
  view {a b} : p.shells a b → a = { b with debug := a.debug }
  picker {a b} : p.shells a b → a.picker = p.picker
  cwd {a b} : p.shells a b → a.cwd.Within p.shown
  enter {a b cwd} : p.shells a b → p.path cwd → p.shells { a with cwd } { b with cwd }
  path_root : p.path []
  path_resolve {a b path} :
    p.shells a b → (∀ t ∈ path, t.Within p.named) → p.path (a.resolve path)
  path_into {dest source} :
    p.path dest → p.path source → p.path (Path.join [dest, Path.name source])
  path_picked {a b name} : p.shells a b → p.picked name → p.path (Path.join [a.cwd, name])
  shown_path {path} : p.path path → path.Within p.shown
  shown_named {c} : p.named c → p.shown c
  shown_plain (c : Char) : c ≠ '\r' → p.shown c
  list {path} : p.path path → p.world.Pairs (Store.list path) (Store.list path) p.SameListing
  read {path} : p.path path → p.world.Alike (Store.read path) fun t => t.Within p.shown
  holds {path} : p.path path → p.world.Alike (Store.holds path) fun _ => True
  isDirectory {path} : p.path path → p.world.Alike (Store.isDirectory path) fun _ => True
  countClear : p.world.Alike World.countClear fun _ => True
  pick {v w picker names} : p.picker = some picker → p.worlds v w →
    (∀ name ∈ names, name.Within p.named) →
    (∀ name ∈ names, ∀ source, picker.source name = .ok source → p.near .importFiles source) →
    p.state.SameAttempts (picker.pickAll names v.disk) (picker.pickAll names w.disk) fun files =>
      ∀ file ∈ files, p.picked file.name ∧ file.content.Within p.shown
  save {picker path content} : p.picker = some picker →
    p.near .exportFile (picker.base.append (.ofText (Path.name path))) → p.path path →
    p.world.Alike (World.onDisk (picker.save (Path.name path) content)) fun t => t.Within p.shown

/-- What commands that change the store rely on. -/
structure Changing (p : Pairing) : Prop extends p.Lawful where
  write {path content} : p.path path → content.Within p.shown →
    p.world.Alike (Store.write path content) fun _ => True
  createFile {path content} : p.path path → content.Within p.shown →
    p.world.Alike (Store.createFile path content) fun _ => True
  createDirectory {path} : p.path path → p.world.Alike (Store.createDirectory path) fun _ => True
  deleteFile {path} : p.path path → p.world.Alike (Store.deleteFile path) fun _ => True
  deleteDirectory {path} : p.path path → p.world.Alike (Store.deleteDirectory path) fun _ => True
  move {source dest} : p.path source → p.path dest →
    p.world.Alike (Store.move source dest) fun _ => True
  clear : p.world.Alike Store.clear fun _ => True

/-- What may come up in a stage. -/
structure Admits (p : Pairing) (stage : Stage) : Prop where
  values : ∀ arg ∈ stage.args, arg.2.Within p.named
  near {picker a b} : p.picker = some picker → p.shells a b →
    ∀ place ∈ a.stageAddresses picker stage, p.near stage.verb place

/-- In both shells the command answers the same. -/
abbrev Answers (p : Pairing) (command : Command) : Prop :=
  p.state.Alike command fun r => r.output.Within p.shown

variable {p : Pairing} {α : Type} {args : Args} {key : Key} {P : α → Prop}

/-! ## Values -/

theorem within_get? {v : Value} (ha : ∀ arg ∈ args, arg.2.Within p.named)
    (hv : args.get? key = some v) : v.Within p.named := by
  obtain ⟨before, after, rfl, -⟩ := List.lookup_eq_some_iff.mp hv
  exact ha (key, v) (by simp)

theorem within_text? {t : Text} (ha : ∀ arg ∈ args, arg.2.Within p.named)
    (ht : args.text? key = some t) : t.Within p.named := by
  obtain ⟨v, hv, htext⟩ := Option.bind_eq_some_iff.mp ht
  have hwithin := within_get? ha hv
  cases v <;> cases htext
  exact hwithin

theorem within_texts? {ts : List Text} (ha : ∀ arg ∈ args, arg.2.Within p.named)
    (ht : args.texts? key = some ts) : ∀ t ∈ ts, t.Within p.named := by
  obtain ⟨v, hv, htexts⟩ := Option.bind_eq_some_iff.mp ht
  have hwithin := within_get? ha hv
  cases v <;> cases htexts
  exact hwithin

theorem within_sourcePaths (ha : ∀ arg ∈ args, arg.2.Within p.named) :
    ∀ path ∈ args.sourcePaths, path.Within p.named := by
  unfold Args.sourcePaths
  split
  · rename_i hpaths
    exact within_texts? ha hpaths
  · rename_i path _ hpath
    simpa using within_text? ha hpath
  · simp

/-! ## The world and the shell -/

theorem pairs_world {x : Action World α} {V : α → α → Prop} (h : p.world.Pairs x x V) :
    p.state.Pairs (liftM x) (liftM x) V := by
  rintro s t ⟨hshells, hworlds⟩
  have hends := h _ _ hworlds
  rw [Action.outcome_liftM_world, Action.outcome_liftM_world]
  generalize x.outcome s.world = r at hends
  generalize x.outcome t.world = r' at hends
  cases hends with
  | gave hv hw => exact .gave hv ⟨hshells, hw⟩
  | failed hf hw => exact .failed hf ⟨hshells, hw⟩
  | excused hf => exact .excused hf

theorem pairs_shell : p.state.Pairs shell shell p.shells :=
  fun _ _ hs => .gave hs.1 hs

theorem pairs_disk :
    p.state.Pairs disk disk fun d d' => ∃ v w, p.worlds v w ∧ v.disk = d ∧ w.disk = d' :=
  fun s t hs => .gave ⟨s.world, t.world, hs.2, rfl, rfl⟩ hs

variable (hp : p.Lawful)
include hp

theorem alike_enter {cwd : Text} (h : p.path cwd) : p.state.Alike (enter cwd) fun _ => True :=
  fun _ _ hs => .gave ⟨rfl, trivial⟩ ⟨hp.enter hs.1 h, hs.2⟩

theorem alike_resolve {path : Option Text} (h : ∀ t ∈ path, t.Within p.named) :
    p.state.Alike (resolve path) fun target =>
      p.path target ∧ ∃ a b, p.shells a b ∧ target = a.resolve path := by
  rintro s t ⟨hshells, hworlds⟩
  have hresolve : s.shell.resolve path = t.shell.resolve path := by
    rw [hp.view hshells]
    rfl
  exact .gave ⟨hresolve, hp.path_resolve hshells h, _, _, hshells, rfl⟩ ⟨hshells, hworlds⟩

end Pairing

end PipeShell
