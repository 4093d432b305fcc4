import PipeShell.Args.Basic
import PipeShell.Shell.Basic

/-!
# Commands on files

Creating, removing, moving and copying, and the exchange of files with the host.
-/

namespace PipeShell.Command

/-- Runs on the store path of the argument, which must be given. -/
def withPath (args : Args) (form : Text) (run : Text → Command) : Command := do
  match args.text? .path with
  | none => return usage form
  | some path => run (← resolve (some path))

/-- Creates a directory. -/
def makeDirectory (args : Args) : Command :=
  withPath args "mkdir <path>" fun target => do
    let _ ← Store.createDirectory target
    return .ok ("Created directory: " ++ Path.display target)

/-- Creates an empty file, unless there is a file. -/
def createEmpty (args : Args) : Command :=
  withPath args "touch <path>" fun target => do
    let isFile ← if ← Store.holds target then pure (!(← Store.isDirectory target)) else pure false
    if isFile then return .ok ("File exists: " ++ Path.display target)
    else
      let _ ← Store.createFile target []
      return .ok ("Created file: " ++ Path.display target)

/-- Removes a file, or a directory when asked to. -/
def remove (args : Args) : Command :=
  withPath args "rm <path>" fun target => do
    if ← Store.isDirectory target then
      if !args.holds .recursive then
        return .fail ("Is a directory: " ++ Path.display target ++ " (use rmdir or rm -r)")
      Store.deleteDirectory target
    else Store.deleteFile target
    return .ok ("Removed: " ++ Path.display target)

/-- Removes a directory with all that it holds. -/
def removeDirectory (args : Args) : Command :=
  withPath args "rmdir <path>" fun target => do
    Store.deleteDirectory target
    return .ok ("Removed directory: " ++ Path.display target)

/-- Runs on the store paths of the source and the destination, which must be given. A destination
that is a directory stands for the entry of the source's name in it. -/
def withPaths (args : Args) (form : Text) (run : Text → Text → Command) : Command := do
  match args.text? .source, args.text? .dest with
  | some source, some dest =>
      let source ← resolve (some source)
      let dest ← resolve (some dest)
      let into ← Store.isDirectory dest
      run source (if into || dest = [] then Path.join [dest, Path.name source] else dest)
  | _, _ => return usage form

/-- Moves a file. -/
def move (args : Args) : Command :=
  withPaths args "mv <source> <dest>" fun source dest => do
    Store.move source dest
    return .ok ("Moved: " ++ Path.display source ++ " -> " ++ Path.display dest)

/-- Copies a file. -/
def copy (args : Args) : Command :=
  withPaths args "cp <source> <dest>" fun source dest => do
    let _ ← Store.copy source dest
    return .ok ("Copied: " ++ Path.display source ++ " -> " ++ Path.display dest)

/-- Creates the picked files in the working directory, and gives their store paths. -/
def storePicked : List PickedFile → Action ShellState (List Text)
  | [] => return []
  | file :: rest => do
      let target := Path.join [(← shell).cwd, file.name]
      let _ ← Store.createFile target file.content
      return target :: (← storePicked rest)

/-- Imports files of the host into the working directory. -/
def importFiles (args : Args) : Command := do
  match (← shell).picker, args.texts? .paths with
  | none, _ => return .fail "Import is not available in this session"
  | some _, none | some _, some [] => return .fail "No files selected"
  | some picker, some requested =>
      let picked ← picker.pickAll requested (← disk)
      let targets ← storePicked picked
      return .ok ("Imported " ++ Text.ofNat targets.length ++ " file(s):\n"
        ++ Text.join ['\n'] (targets.map fun target => "  " ++ Path.display target))

/-- Exports a file to the host. -/
def exportFile (args : Args) : Command :=
  withPath args "export <path>" fun target => do
    match (← shell).picker with
    | none => return .fail "Export is not available in this session"
    | some picker =>
        let content ← Store.read target
        let location ← World.onDisk (picker.save (Path.name target) content)
        return .ok ("Exported: " ++ Path.display target ++ " -> " ++ location)

end PipeShell.Command
