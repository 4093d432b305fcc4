import PipeShell.Disk.Basic

/-!
# Changes of a disk

What has to be done to turn one disk into another: first everything goes that does not stay what it
is, the deepest entries first, and then everything new comes, directories before what they hold.
-/

namespace PipeShell

/-- A change of one entry, whose segments are given. -/
inductive DiskChange
  | removeFile (path : List Text)
  | removeDirectory (path : List Text)
  | makeDirectory (path : List Text)
  | writeFile (path : List Text) (bytes : Bytes)
  deriving DecidableEq, Repr

namespace DiskChange

/-- The change that takes an entry away, unless an entry of its kind stays in its place. -/
def removal? (after : Option (Node Bytes)) (path : List Text) : Option Bytes → Option DiskChange
  | some _ =>
      match after with
      | some (.file _) => none
      | _ => some (removeFile path)
  | none =>
      match after with
      | some (.folder _) => none
      | _ => some (removeDirectory path)

/-- The change that brings an entry, unless the same entry was there before. -/
def arrival? (before : Option (Node Bytes)) (path : List Text) : Option Bytes → Option DiskChange
  | some bytes => if before = some (.file bytes) then none else some (writeFile path bytes)
  | none =>
      match before with
      | some (.folder _) => none
      | _ => some (makeDirectory path)

end DiskChange

/-- The changes that turn the tree of a disk into another tree. -/
def Disk.changes (before after : Folder Bytes) : List DiskChange :=
  (before.sortedEntries.reverse.filterMap fun (path, content) =>
      DiskChange.removal? (after.node? path) path content)
    ++ after.sortedEntries.filterMap fun (path, content) =>
      DiskChange.arrival? (before.node? path) path content

end PipeShell
