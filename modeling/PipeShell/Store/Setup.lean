import PipeShell.Store.World

/-!
# Setting up stores

Worlds with a fresh store, and files that were on disk beforehand.
-/

namespace PipeShell

/-- The tree with the files of bytes below a directory, and directories where no bytes are given,
with the missing directories above them. -/
def Folder.plant (base : List Text) (files : List (Text × Option Bytes)) (tree : Folder Bytes) :
    Folder Bytes :=
  files.foldl (fun tree (name, content) =>
    let path := Path.walk (base ++ Path.segments name)
    match content with
    | none => tree.ensure path
    | some bytes => (tree.ensure path.dropLast).write path bytes) (tree.ensure base)

/-- A store in memory with text files, which have to fit into the quota. -/
def Memory.ofFiles (quota : Int) (files : List (Text × Text)) : Except Failure Memory :=
  files.foldlM (fun m (path, content) =>
    match m.createFile path content with
    | (.ok _, m) => .ok m
    | (.error f, _) => .error f) { quota }

/-- A world around a store in memory. -/
def World.ofMemory (m : Memory) (faults : Faults) (disk : Disk) : World :=
  { backing := .memory m, faults, disk }

/-- A world around a store on disk below an address, whose directory is made if it is missing. -/
def World.ofHost (a : Address) (encoding : Encoding) (free : Nat) (faults : Faults) (disk : Disk) :
    Except Failure World :=
  match Host.openAt a encoding free disk with
  | (.ok h, disk) => .ok { backing := .host h, faults, disk }
  | (.error f, _) => .error f

/-- The files and directories below a directory of a disk, sorted by path; none when there is no
such directory. -/
def Disk.listing (d : Disk) (segments : List Text) : Option (List (Text × Option Bytes)) :=
  match d.node segments with
  | .ok (.folder inside) =>
      some (inside.sortedEntries.map fun (path, content) => (Path.ofSegments path, content))
  | _ => none

/-- The files and directories that a world's store holds, with their contents. -/
def World.contents (w : World) : List (Text × Option Bytes) :=
  match w.backing with
  | .memory m => m.tree.entries.map fun (path, content) =>
      (Path.ofSegments path, content.map Text.encode)
  | .host h => (w.disk.listing h.root).getD []
  | .abstract => []

end PipeShell
