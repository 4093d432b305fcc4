import PipeShell.Store.World

/-!
# Stores

The operations of a store, wherever it keeps its files, and with its faults. Copying and moving are
made of the others, so faults reach them as well.
-/

namespace PipeShell.Store

/-- All entries below a directory, each directory before what it holds. -/
def list (root : Text) : Action World (List StoreEntry) :=
  World.ask (·.list root) (·.list · root)

/-- The content of the file at a path. -/
def read (path : Text) : Action World Text := do
  match (← get).faults.brokenReads with
  | some cause => throw (.brokenRead cause)
  | none => World.ask (·.read path) (·.read · path)

/-- There is an entry at the path. -/
def holds (path : Text) : Action World Bool :=
  World.ask (fun m => .ok (m.holds path)) (·.holds · path)

/-- There is a directory at the path. -/
def isDirectory (path : Text) : Action World Bool :=
  World.ask (fun m => .ok (m.isDirectory path)) (·.isDirectory · path)

/-- The record of a written file. -/
def noteWritten (content path : Text) : Action World Unit :=
  World.note .debug .stores ("wrote " ++ Text.ofNat content.length ++ " chars to " ++ path)

/-- Replaces the content of the file at a path. -/
def write (path content : Text) : Action World Unit := do
  let w ← get
  if w.faults.unwritable.contains path then throw (.readOnly path)
  match w.backing with
  | .memory m =>
      let m ← m.write path content
      set { w with backing := .memory m }
      noteWritten content (Path.join [path])
  | .host h =>
      let place ← World.onDisk (h.write path content)
      noteWritten content (Address.ofSegments place).toText
  | .abstract => throw .notImplemented

/-- Creates or replaces the file at a path, with the missing directories above it. -/
def createFile (path content : Text) : Action World StoreEntry := do
  let w ← get
  match w.backing with
  | .memory m =>
      let (result, after) := m.createFile path content
      set { w with backing := .memory after }
      let entry ← result
      unless m.holds path do
        World.note .debug .stores ("created " ++ entry.path)
      return entry
  | .host h => World.onDisk (h.createFile path content)
  | .abstract => throw .notImplemented

/-- Creates the directory at a path with the missing ones above it. -/
def createDirectory (path : Text) : Action World StoreEntry := do
  let w ← get
  match w.backing with
  | .memory m =>
      let (entry, after) ← m.createDirectory path
      set { w with backing := .memory after }
      return entry
  | .host h => World.onDisk (h.createDirectory path)
  | .abstract => throw .notImplemented

/-- Deletes the file at a path. -/
def deleteFile (path : Text) : Action World Unit := do
  let w ← get
  if w.faults.allUndeletable || w.faults.undeletable.contains path then throw (.permissionDenied path)
  match w.backing with
  | .memory m =>
      let after ← m.deleteFile path
      set { w with backing := .memory after }
      World.note .debug .stores ("deleting " ++ Path.join [path])
  | .host h => World.onDisk (h.deleteFile path)
  | .abstract => throw .notImplemented

/-- Deletes the directory at a path with all that it holds. -/
def deleteDirectory (path : Text) : Action World Unit :=
  World.change (·.deleteDirectory path) (·.deleteDirectory path)

/-- Deletes everything. -/
def clear : Action World Unit :=
  World.change (.ok ·.clear) (·.clear)

/-- The bytes used and allowed, if the store can tell. -/
def storageInfo : Action World (Option StorageInfo) := do
  let w ← get
  if w.faults.noStorageInfo then return none
  match w.backing with
  | .memory m => return some m.storageInfo
  | .host h => return some (h.storageInfo w.disk)
  | .abstract => return none

/-- Copies a file. -/
def copy (source dest : Text) : Action World StoreEntry := do
  if ← isDirectory source then throw (.directoryCopy source)
  createFile dest (← read source)

/-- Puts the destination of a failed move back: its former content, or none. An expected failure of
that is only noted. -/
def rollBack (dest : Text) (former : Option Text) : Action World Unit :=
  let restore := match former with
    | none => deleteFile dest
    | some content => write dest content
  tryCatch restore fun f =>
    if f.isExpected then
      World.note .warning .moves
        ("Could not roll back " ++ dest ++ " after failed move: " ++ f.message)
    else throw f

/-- Moves a file: copies it, then deletes the source. When the source cannot be deleted, the
destination is put back as it was. -/
def move (source dest : Text) : Action World Unit := do
  if ← isDirectory source then throw (.directoryMove source)
  if source = dest then return
  let isFile ← if ← holds dest then pure (!(← isDirectory dest)) else pure false
  let former ← if isFile then some <$> read dest else pure none
  let _ ← copy source dest
  tryCatch (deleteFile source) fun f =>
    if f.isExpected then do
      rollBack dest former
      throw (.sourceKept source f)
    else throw f

end PipeShell.Store
