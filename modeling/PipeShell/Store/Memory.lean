import PipeShell.Folder
import PipeShell.Store.Entry
import PipeShell.Text.Utf8

/-!
# The store in memory

A tree of text files with a quota in bytes. Every path is split into segments first, so spellings
with doubled slashes or `.` name the same entry; `..` is a name like any other here.
-/

namespace PipeShell

/-- A store in memory: its tree and the bytes that it may hold. -/
structure Memory where
  tree : Folder Text := .empty
  quota : Int
  deriving DecidableEq, Repr

namespace Memory

/-- The quota of a store that is given none: 50 MiB. -/
def defaultQuota : Int := 50 * 1024 * 1024

/-- The bytes of all files. -/
def used (m : Memory) : Nat :=
  m.tree.sum Text.byteLength

/-- The node at a path, or why there is none. -/
def node (m : Memory) (path : Text) : Except Failure (Node Text) :=
  match m.tree.find (Path.segments path) with
  | .node n => .ok n
  | .missing here => .error (.noSuchEntry (Path.ofSegments here))
  | .blocked here => .error (.notADirectory (Path.ofSegments here))

/-- The content of the file at a path. -/
def read (m : Memory) (path : Text) : Except Failure Text := do
  match ← m.node path with
  | .file content => return content
  | .folder _ => throw (.isADirectory (Path.join [path]))

/-- What the directory at a path holds. -/
def directory (m : Memory) (path : Text) : Except Failure (Folder Text) := do
  match ← m.node path with
  | .folder inside => return inside
  | .file _ => throw (.notADirectory (Path.join [path]))

/-- The entry that stands at the segments of a path. -/
def entry (segments : List Text) (isDirectory : Bool) : StoreEntry :=
  ⟨segments.getLastD [], Path.ofSegments segments, isDirectory⟩

/-- All entries below a directory, each directory before what it holds. -/
def list (m : Memory) (root : Text) : Except Failure (List StoreEntry) := do
  let inside ← m.directory root
  return (inside.entriesUnder (Path.segments root)).map fun (path, content) =>
    entry path content.isNone

/-- There is an entry at the path. -/
def holds (m : Memory) (path : Text) : Bool :=
  (m.tree.node? (Path.segments path)).isSome

/-- There is a directory at the path. -/
def isDirectory (m : Memory) (path : Text) : Bool :=
  match m.tree.node? (Path.segments path) with
  | some (.folder _) => true
  | _ => false

/-- Refuses a content that would bring the store over its quota, when it replaces so many bytes. -/
def checkQuota (m : Memory) (replaced : Nat) (content : Text) : Except Failure Unit :=
  let projected : Int := m.used - replaced + Text.byteLength content
  if m.quota < projected then .error (.quotaExceeded projected m.quota) else .ok ()

/-- Replaces the content of the file at a path. -/
def write (m : Memory) (path content : Text) : Except Failure Memory := do
  let former ← m.read path
  m.checkQuota (Text.byteLength former) content
  return { m with tree := m.tree.write (Path.segments path) content }

/-- Creates the directory at a path with the missing ones above it. -/
def ensureDirectory (m : Memory) (segments : List Text) : Except Failure Memory :=
  match m.tree.find segments with
  | .node (.file _) => .error (.notADirectory (Path.ofSegments segments))
  | .blocked here => .error (.notADirectory (Path.ofSegments here))
  | .node (.folder _) | .missing _ => .ok { m with tree := m.tree.ensure segments }

/-- Creates the directory at a path with the missing ones above it. -/
def createDirectory (m : Memory) (path : Text) : Except Failure (StoreEntry × Memory) := do
  let segments := Path.segments path
  if segments = [] then throw .emptyDirectoryPath
  return (entry segments true, ← m.ensureDirectory segments)

/-- Creates or replaces the file at a path, with the missing directories above it. The directories
stay when the content does not fit into the quota. -/
def createFile (m : Memory) (path content : Text) : Except Failure StoreEntry × Memory :=
  let segments := Path.segments path
  if segments = [] then (.error (.invalidFilePath path), m)
  else
    match m.ensureDirectory segments.dropLast with
    | .error f => (.error f, m)
    | .ok made =>
        match made.tree.node? segments with
        | some (.folder _) => (.error (.isADirectory (Path.ofSegments segments)), made)
        | former =>
            let replaced := match former with
              | some (.file text) => Text.byteLength text
              | _ => 0
            match made.checkQuota replaced content with
            | .error f => (.error f, made)
            | .ok () =>
                (.ok (entry segments false), { made with tree := made.tree.write segments content })

/-- Deletes the file at a path. -/
def deleteFile (m : Memory) (path : Text) : Except Failure Memory := do
  let _ ← m.read path
  return { m with tree := m.tree.erase (Path.segments path) }

/-- Deletes the directory at a path with all that it holds. -/
def deleteDirectory (m : Memory) (path : Text) : Except Failure Memory := do
  if Path.segments path = [] then throw .rootRemoval
  let _ ← m.directory path
  return { m with tree := m.tree.erase (Path.segments path) }

/-- Deletes everything. -/
def clear (m : Memory) : Memory :=
  { m with tree := .empty }

/-- The bytes used, and the quota. -/
def storageInfo (m : Memory) : StorageInfo :=
  ⟨m.used, m.quota⟩

end Memory

end PipeShell
