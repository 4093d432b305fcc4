import PipeShell.Log
import PipeShell.Store.Host
import PipeShell.Store.Memory

/-!
# The world of a shell

What commands can change: the store, the disk of the host, the log, and how often the screen was
cleared. A store may be given faults, which refuse operations on some paths.
-/

namespace PipeShell

/-- Where a store keeps its files. The abstract store has no operations. -/
inductive Backing
  | memory (m : Memory)
  | host (h : Host)
  | abstract
  deriving DecidableEq, Repr

/-- Operations that a store refuses. Paths are compared as they are written. -/
structure Faults where
  undeletable : List Text := []
  allUndeletable : Bool := false
  unwritable : List Text := []
  brokenReads : Option Text := none
  noStorageInfo : Bool := false
  deriving DecidableEq, Repr

/-- What commands can change. -/
structure World where
  backing : Backing
  faults : Faults := {}
  disk : Disk := {}
  log : List LogRecord := []
  clears : Nat := 0
  deriving DecidableEq, Repr

namespace World

/-- Notes a record. -/
def note (level : LogLevel) (source : LogSource) (message : Text) : Action World Unit :=
  modify fun w => { w with log := w.log ++ [⟨level, source, message⟩] }

/-- Counts one more clearing of the screen. -/
def countClear : Action World Unit :=
  modify fun w => { w with clears := w.clears + 1 }

/-- Runs an operation of the disk. -/
def onDisk {α : Type} (action : Action Disk α) : Action World α := fun w =>
  let (result, disk) := action w.disk
  (result, { w with disk })

/-- A question to the store, which changes nothing. -/
def ask {α : Type} (memory : Memory → Except Failure α) (host : Host → Disk → Except Failure α) :
    Action World α := fun w =>
  match w.backing with
  | .memory m => (memory m, w)
  | .host h => (host h w.disk, w)
  | .abstract => (.error .notImplemented, w)

/-- A change of the store, which keeps what was there before when it fails. -/
def change (memory : Memory → Except Failure Memory) (host : Host → Action Disk Unit) :
    Action World Unit := fun w =>
  match w.backing with
  | .memory m =>
      match memory m with
      | .ok m => (.ok (), { w with backing := .memory m })
      | .error f => (.error f, w)
  | .host h => onDisk (host h) w
  | .abstract => (.error .notImplemented, w)

end World

end PipeShell
