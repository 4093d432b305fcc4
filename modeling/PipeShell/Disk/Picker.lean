import PipeShell.Disk.TextFile

/-!
# Picking files of the host

Files come into a store from a directory of the host, and go out to it. A name may lead anywhere on
the host when a file is picked, and `~` in front stands for a home directory.
-/

namespace PipeShell

/-- A picker of files: the directory that names start from, and the homes of users. -/
structure Picker where
  base : Address
  homes : Homes := []
  deriving DecidableEq, Repr

/-- A file of the host that was picked. -/
structure PickedFile where
  name : Text
  content : Text
  deriving DecidableEq, Repr

namespace Picker

/-- The picker that starts from the directory at an address. -/
def ofAddress (homes : Homes) (a : Address) : Except Failure Picker := do
  return { base := ← a.expandHome homes, homes }

/-- The address that the name of a file to be picked stands for. -/
def source (p : Picker) (name : Text) : Except Failure Address := do
  return p.base.append (← (Address.ofText name).expandHome p.homes)

/-- Picks one file. -/
def pick (p : Picker) (name : Text) (d : Disk) : Except Failure PickedFile := do
  let source ← p.source name
  match ← d.probe source with
  | some (.file bytes) => return ⟨source.name, ← Disk.textOf .utf8 bytes⟩
  | _ => throw (.noSuchHostFile name)

/-- Picks the files of these names. -/
def pickAll (p : Picker) (names : List Text) (d : Disk) : Except Failure (List PickedFile) :=
  names.mapM (p.pick · d)

/-- Saves a text under a name, and gives the address where it went. -/
def save (p : Picker) (name content : Text) : Action Disk Text := do
  if name = [] ∨ name = ['.'] ∨ name = ['.', '.'] then throw (.invalidExportName name)
  Disk.ensureDirectory p.base
  let target := p.base.append (.ofText name)
  Disk.writeText .utf8 target content
  return target.toText

end Picker

end PipeShell
