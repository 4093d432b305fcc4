import PipeShell.Disk.Address
import PipeShell.Folder
import PipeShell.Store.Entry
import PipeShell.Text.Utf8

/-!
# The host's disk

The file system of the host: a tree of files of bytes without links. It is walked segment by segment
from the root, so that a name behind a missing directory or a file is an error of its own.
-/

namespace PipeShell

/-- The contents of a file on disk. -/
abbrev Bytes := List UInt8

/-- A disk, with the segments of the program's working directory and the bytes of the longest name
that an entry may have, unless names may have any length. -/
structure Disk where
  tree : Folder Bytes := .empty
  workingDirectory : List Text := []
  longestName : Option Nat := some 255
  deriving DecidableEq, Repr

namespace Disk

/-- An entry cannot have the name. -/
def isTooLong (d : Disk) (name : Text) : Bool :=
  d.longestName.any (· < Text.byteLength name)

/-- The path of an entry that a walk along the segments reaches; `walked` are the segments of the
directory that it starts in, the last one first. -/
def walk (d : Disk) (walked : List Text) : List Text → Except DiskError (List Text)
  | [] => .ok walked.reverse
  | name :: rest =>
      if name = ['.', '.'] then walk d walked.tail rest
      else if d.isTooLong name then .error .nameTooLong
      else
        match d.tree.node? (name :: walked).reverse with
        | none => .error .noEntry
        | some (.folder _) => walk d (name :: walked) rest
        | some (.file _) =>
            if rest = [] then .ok (name :: walked).reverse else .error .notDirectory

/-- The node at the end of a walk from the root. -/
def node (d : Disk) (segments : List Text) : Except DiskError (Node Bytes) := do
  let path ← d.walk [] segments
  match d.tree.node? path with
  | some n => return n
  | none => throw .noEntry

/-- The node that an address names, if there is one; an overlong name is refused. -/
def probe (d : Disk) (a : Address) : Except Failure (Option (Node Bytes)) :=
  if a.hasNull then .ok none
  else match d.node (a.segmentsFrom d.workingDirectory) with
  | .ok n => .ok (some n)
  | .error .nameTooLong => .error (.disk .nameTooLong a.toText)
  | .error _ => .ok none

/-- There is a directory at the address. -/
def isDirectory (d : Disk) (a : Address) : Except Failure Bool := do
  match ← d.probe a with
  | some (.folder _) => return true
  | _ => return false

/-- The path of an entry that may be created: its directory exists and its name is not too long. -/
def place (d : Disk) (segments : List Text) : Except DiskError (List Text) := do
  match segments.getLast? with
  | none => return []
  | some name =>
      let above ← d.walk [] segments.dropLast
      match d.tree.node? above with
      | some (.folder _) =>
          if name = ['.', '.'] then return above.dropLast
          else if d.isTooLong name then throw .nameTooLong
          else return above ++ [name]
      | some (.file _) => throw .notDirectory
      | none => throw .noEntry

/-- Makes one directory in an existing one. -/
def makeDirectory (segments : List Text) (d : Disk) : Except DiskError Disk := do
  let path ← d.place segments
  match d.tree.node? path with
  | some _ => throw .exists
  | none => return { d with tree := d.tree.alter path fun _ => some (.folder .empty) }

/-- Makes the directory at an address in an existing one; an existing directory will do. -/
def makeOrKeep (a : Address) : Action Disk Unit := fun d =>
  match d.makeDirectory (a.segmentsFrom d.workingDirectory) with
  | .ok made => (.ok (), made)
  | .error .noEntry => (.error (.disk .noEntry a.toText), d)
  | .error e =>
      match d.isDirectory a with
      | .error f => (.error f, d)
      | .ok true => (.ok (), d)
      | .ok false => (.error (.disk e a.toText), d)

/-- Makes the directory at an address, whose segments come last first, and the missing ones above
it. The directories that were made stay when a later one is refused. -/
def makeDirectories (root : Text) : List Text → Action Disk Unit
  | [] => makeOrKeep ⟨root, []⟩
  | name :: above => fun d =>
      let a : Address := ⟨root, (name :: above).reverse⟩
      match d.makeDirectory (a.segmentsFrom d.workingDirectory) with
      | .error .noEntry =>
          match makeDirectories root above d with
          | (.error f, d) => (.error f, d)
          | (.ok (), d) => makeOrKeep a d
      | _ => makeOrKeep a d

/-- Makes the directory at an address and the missing ones above it. -/
def ensureDirectory (a : Address) : Action Disk Unit :=
  if a.hasNull then throw .nullInPath else makeDirectories a.root a.parts.reverse

/-- Writes the file at an address, which replaces what it held. -/
def write (a : Address) (bytes : Bytes) : Action Disk Unit := fun d =>
  if a.hasNull then (.error .nullInPath, d)
  else
    match d.place (a.segmentsFrom d.workingDirectory) with
    | .error e => (.error (.disk e a.toText), d)
    | .ok path =>
        match d.tree.node? path with
        | some (.folder _) => (.error (.disk .isDirectory a.toText), d)
        | _ => (.ok (), { d with tree := d.tree.write path bytes })

/-- Deletes what stands at the segments. -/
def erase (segments : List Text) (d : Disk) : Disk :=
  { d with tree := d.tree.erase segments }

end Disk

end PipeShell
