import PipeShell.Disk.TextFile

/-!
# The store on disk

A store that keeps its files below a directory of the host. A path is first walked by its segments
alone, where `..` steps back even from what does not exist, and must then lie below the root of the
store.
-/

namespace PipeShell

/-- A store on disk: the address that its root was given by, the segments of that root, the encoding
of its files, and the bytes that the disk has free. -/
structure Host where
  address : Address
  root : List Text
  encoding : Encoding := .utf8
  free : Nat := 0
  deriving DecidableEq, Repr

namespace Host

/-- The store below an address, whose directory is made if it is missing. -/
def openAt (a : Address) (encoding : Encoding) (free : Nat) : Action Disk Host := fun d =>
  match Disk.ensureDirectory a d with
  | (.error f, d) => (.error f, d)
  | (.ok (), d) =>
      (.ok ⟨a, Path.walk (a.segmentsFrom d.workingDirectory), encoding, free⟩, d)

/-- The segments of a path's entry on disk. -/
def target (h : Host) (path : Text) : Except Failure (List Text) :=
  let segments := Path.segments path
  if segments.any (·.contains '\x00') then .error .nullInPath
  else
    let place := Path.walk (h.root ++ segments)
    if h.root.isPrefixOf place then .ok place else .error (.escapesRoot path)

/-- The node of a path, if there is one. -/
def probe (h : Host) (d : Disk) (path : Text) : Except Failure (Option (Node Bytes)) := do
  d.probe (.ofSegments (← h.target path))

/-- The node of a path, which must exist, with its segments on disk. -/
def existing (h : Host) (d : Disk) (path : Text) : Except Failure (List Text × Node Bytes) := do
  let place ← h.target path
  match ← d.probe (.ofSegments place) with
  | some n => return (place, n)
  | none => throw (.noSuchEntry (Path.join [path]))

/-- The file of a path, which must exist, with its segments on disk. -/
def existingFile (h : Host) (d : Disk) (path : Text) : Except Failure (List Text × Bytes) := do
  match ← h.existing d path with
  | (place, .file bytes) => return (place, bytes)
  | (_, .folder _) => throw (.isADirectory (Path.join [path]))

/-- The directory of a path, which must exist, with its segments on disk. -/
def existingDirectory (h : Host) (d : Disk) (path : Text) :
    Except Failure (List Text × Folder Bytes) := do
  match ← h.existing d path with
  | (place, .folder inside) => return (place, inside)
  | (_, .file _) => throw (.notADirectory (Path.join [path]))

/-- All entries below a directory, sorted by path. -/
def list (h : Host) (d : Disk) (root : Text) : Except Failure (List StoreEntry) := do
  let (place, inside) ← h.existingDirectory d root
  return inside.sortedEntries.map fun (path, content) =>
    ⟨path.getLastD [], Path.ofSegments (place.drop h.root.length ++ path), content.isNone⟩

/-- The content of the file at a path. -/
def read (h : Host) (d : Disk) (path : Text) : Except Failure Text := do
  let (_, bytes) ← h.existingFile d path
  Disk.textOf h.encoding bytes

/-- There is an entry at the path. A path that leads out of the store has none. -/
def holds (h : Host) (d : Disk) (path : Text) : Except Failure Bool :=
  match h.probe d path with
  | .ok n => .ok n.isSome
  | .error (.escapesRoot _) => .ok false
  | .error f => .error f

/-- There is a directory at the path. -/
def isDirectory (h : Host) (d : Disk) (path : Text) : Except Failure Bool :=
  match h.probe d path with
  | .ok (some (.folder _)) => .ok true
  | .ok _ => .ok false
  | .error (.escapesRoot _) => .ok false
  | .error f => .error f

/-- Replaces the content of the file at a path; gives its segments on disk. -/
def write (h : Host) (path content : Text) : Action Disk (List Text) := do
  let (place, _) ← h.existingFile (← get) path
  Disk.writeText h.encoding (.ofSegments place) content
  return place

/-- Creates the directory at a path with the missing ones above it. -/
def createDirectory (h : Host) (path : Text) : Action Disk StoreEntry := do
  if Path.segments path = [] then throw .emptyDirectoryPath
  let place ← h.target path
  let blocked := Failure.notADirectory (Path.join [path])
  tryCatch (Disk.ensureDirectory (.ofSegments place)) fun
    | .disk .exists _ | .disk .notDirectory _ => throw blocked
    | f => throw f
  return ⟨place.getLastD [], Path.join [path], true⟩

/-- Creates or replaces the file at a path, with the missing directories above it. -/
def createFile (h : Host) (path content : Text) : Action Disk StoreEntry := do
  let (parent, name) := Path.parentAndName path
  if name = [] then throw (.invalidFilePath path)
  if parent ≠ [] then
    let _ ← h.createDirectory parent
  let place ← h.target path
  if ← (← get).isDirectory (.ofSegments place) then throw (.isADirectory (Path.join [path]))
  Disk.writeText h.encoding (.ofSegments place) content
  return ⟨name, Path.join [path], false⟩

/-- Deletes the file at a path. -/
def deleteFile (h : Host) (path : Text) : Action Disk Unit := do
  let (place, _) ← h.existingFile (← get) path
  modify (Disk.erase place)

/-- Deletes the directory at a path with all that it holds. -/
def deleteDirectory (h : Host) (path : Text) : Action Disk Unit := do
  if Path.segments path = [] then throw .rootRemoval
  let (place, _) ← h.existingDirectory (← get) path
  modify (Disk.erase place)

/-- The bytes of all files, and the quota to which the free bytes of the disk raise them. -/
def storageInfo (h : Host) (d : Disk) : StorageInfo :=
  let used := match d.node h.root with
    | .ok (.folder inside) => inside.sum List.length
    | _ => 0
  ⟨used, used + h.free⟩

/-- Deletes everything below the root of the store. -/
def clear (h : Host) : Action Disk Unit := do
  let d ← get
  match d.node h.root with
  | .ok (.folder _) =>
      modify fun d => { d with tree := d.tree.hollow h.root }
  | .ok (.file _) => throw (.disk .notDirectory h.address.toText)
  | .error e => throw (.disk e h.address.toText)

end Host

end PipeShell
