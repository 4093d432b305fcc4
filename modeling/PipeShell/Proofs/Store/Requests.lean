import PipeShell.Proofs.Store.Inside

/-!
# Requests to a store

A caller asks a store for one thing after another and sees the answers. Two stores on disks that
hold the same at their root give the same answers to whatever is asked of them.
-/

namespace PipeShell

/-- What can be asked of a store. -/
inductive Request
  | list (path : Text)
  | read (path : Text)
  | holds (path : Text)
  | isDirectory (path : Text)
  | storageInfo
  | write (path content : Text)
  | createFile (path content : Text)
  | createDirectory (path : Text)
  | deleteFile (path : Text)
  | deleteDirectory (path : Text)
  | copy (source dest : Text)
  | move (source dest : Text)
  | clear

/-- What a store answers to a request that it can meet. -/
inductive Answer
  | done
  | flag (b : Bool)
  | text (t : Text)
  | entry (e : StoreEntry)
  | entries (es : List StoreEntry)
  | storage (info : Option StorageInfo)
  deriving DecidableEq, Repr

namespace Request

open PipeShell.Action Tie

/-- Makes a request. -/
def run : Request → Action World Answer
  | list path => .entries <$> Store.list path
  | read path => .text <$> Store.read path
  | holds path => .flag <$> Store.holds path
  | isDirectory path => .flag <$> Store.isDirectory path
  | storageInfo => .storage <$> Store.storageInfo
  | write path content => (fun _ => .done) <$> Store.write path content
  | createFile path content => .entry <$> Store.createFile path content
  | createDirectory path => .entry <$> Store.createDirectory path
  | deleteFile path => (fun _ => .done) <$> Store.deleteFile path
  | deleteDirectory path => (fun _ => .done) <$> Store.deleteDirectory path
  | copy source dest => .entry <$> Store.copy source dest
  | move source dest => (fun _ => .done) <$> Store.move source dest
  | clear => (fun _ => .done) <$> Store.clear

/-- The paths that a request gives. -/
def paths : Request → List Text
  | list path | read path | holds path | isDirectory path | write path _ | createFile path _
  | createDirectory path | deleteFile path | deleteDirectory path => [path]
  | copy source dest | move source dest => [source, dest]
  | storageInfo | clear => []

/-- Makes requests one after the other, whether they fail or not; gives what the caller sees. -/
def runAll : List Request → World → List (Except Failure Answer) × World
  | [], w => ([], w)
  | r :: rest, w =>
      let (seen, w) := r.run.outcome w
      let (more, w) := runAll rest w
      (seen :: more, w)

theorem runAll_append (first second : List Request) (w : World) :
    runAll (first ++ second) w
      = ((runAll first w).1 ++ (runAll second (runAll first w).2).1,
        (runAll second (runAll first w).2).2) := by
  induction first generalizing w with
  | nil => rfl
  | cons r rest ih => simp [runAll, ih]

variable {h : Host} {start start' : Disk}

/-! ## The same answers -/

theorem alike_run (hroot : Disk.Below h.root h.root) (r : Request) :
    (World.inside h start start').Alike r.run fun _ => True := by
  have answered {α : Type} {x : Action World α} {answer : α → Answer}
      (hx : (World.inside h start start').Alike x fun _ => True) :
      (World.inside h start start').Alike (answer <$> x) fun _ => True :=
    hx.bind fun _ _ => alike_pure trivial
  cases r with
  | list path => exact answered (World.Inside.alike_list path)
  | read path => exact answered (World.Inside.alike_read path)
  | holds path => exact answered (World.Inside.alike_holds path)
  | isDirectory path => exact answered (World.Inside.alike_isDirectory path)
  | storageInfo => exact answered (World.Inside.alike_storageInfo hroot)
  | write path content => exact answered (World.Inside.alike_write path content)
  | createFile path content => exact answered (World.Inside.alike_createFile path content)
  | createDirectory path => exact answered (World.Inside.alike_createDirectory path)
  | deleteFile path => exact answered (World.Inside.alike_deleteFile path)
  | deleteDirectory path => exact answered (World.Inside.alike_deleteDirectory path)
  | copy source dest => exact answered (World.Inside.alike_copy source dest)
  | move source dest => exact answered (World.Inside.alike_move source dest)
  | clear => exact answered (World.Inside.alike_clear hroot)

/-- One request is answered alike, and leaves the worlds related. -/
theorem run_same (hroot : Disk.Below h.root h.root) (r : Request) {v w : World}
    (hvw : (World.inside h start start').states v w) :
    (r.run.outcome v).1 = (r.run.outcome w).1
      ∧ (World.inside h start start').states (r.run.outcome v).2 (r.run.outcome w).2 := by
  have hends := alike_run hroot r v w hvw
  generalize r.run.outcome v = out at hends
  generalize r.run.outcome w = out' at hends
  cases hends with
  | gave hv hs => exact ⟨congrArg Except.ok hv.1, hs⟩
  | failed hf hs => exact ⟨congrArg Except.error (hf.resolve_right not_false), hs⟩
  | excused hf => exact hf.elim

theorem runAll_same (hroot : Disk.Below h.root h.root) (requests : List Request) {v w : World}
    (hvw : (World.inside h start start').states v w) :
    (runAll requests v).1 = (runAll requests w).1
      ∧ (World.inside h start start').states (runAll requests v).2 (runAll requests w).2 := by
  induction requests generalizing v w with
  | nil => exact ⟨rfl, hvw⟩
  | cons r rest ih =>
      obtain ⟨hseen, hnext⟩ := run_same hroot r hvw
      obtain ⟨hmore, hafter⟩ := ih hnext
      exact ⟨congrArg₂ List.cons hseen hmore, hafter⟩

end Request

end PipeShell
