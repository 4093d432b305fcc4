import PipeShell.CommandLine.Console
import PipeShell.Disk.Change
import PipeShell.Shell.HostNames

/-!
# The program

Reads the command line, and runs it on the disk of the host: what a step may touch is loaded before
it, and what it changed is saved after it. Links in directories are passed over.
-/

namespace PipeShell.Program

/-! ## The disk -/

/-- The name of an entry for the operating system. -/
def nameOf (path : List Text) : String :=
  String.ofList ('/' :: Path.ofSegments path)

/-- What stands at a path, if anything. -/
def typeOf? (path : List Text) : IO (Option IO.FS.FileType) := do
  try
    let place ← IO.FS.realPath (nameOf path)
    return some (← place.metadata).type
  catch _ => return none

/-- The bytes of the file at a path. -/
def readBytes (path : List Text) : IO Bytes := do
  return (← IO.FS.readBinFile (nameOf path)).toList

/-- The names in the directory at a path. -/
def namesIn (path : List Text) : IO (List Text) := do
  let place ← IO.FS.realPath (nameOf path)
  return (← place.readDir).toList.map fun entry => entry.fileName.toList

/-- The path leads over a link. -/
def isLink (path : List Text) : IO Bool := do
  return (← IO.FS.realPath (nameOf path)).toString != nameOf path

/-- The tree with the entry at a path, and with all that it holds when `deep` is set. -/
partial def loadEntry (deep : Bool) (path : List Text) (tree : Folder Bytes) :
    IO (Folder Bytes) := do
  match ← typeOf? path with
  | some .dir =>
      let mut tree := tree.ensure path
      if deep then
        for name in ← namesIn path do
          if !(← isLink (path ++ [name])) then tree ← loadEntry true (path ++ [name]) tree
      return tree
  | some .file => return tree.write path (← readBytes path)
  | _ => return tree

/-- The tree with the entries on the way along the segments; the last of them is loaded deeply when
`deep` is set. -/
def loadWay (deep : Bool) (walked : List Text) (tree : Folder Bytes) :
    List Text → IO (Folder Bytes)
  | [] => if deep then loadEntry true walked.reverse tree else return tree
  | name :: rest => do
      if name = ['.', '.'] then loadWay deep walked.tail tree rest
      else
        let tree ← loadEntry false (name :: walked).reverse tree
        loadWay deep (name :: walked) tree rest

/-- The disk with what stands at an address. -/
def load (deep : Bool) (a : Address) (d : Disk) : IO Disk := do
  if a.hasNull then return d
  return { d with tree := ← loadWay deep [] d.tree (a.segmentsFrom d.workingDirectory) }

/-- Makes a change on the host. -/
def apply : DiskChange → IO Unit
  | .removeFile path => IO.FS.removeFile (nameOf path)
  | .removeDirectory path => IO.FS.removeDir (nameOf path)
  | .makeDirectory path => IO.FS.createDir (nameOf path)
  | .writeFile path bytes => IO.FS.writeBinFile (nameOf path) (ByteArray.mk bytes.toArray)

/-- Saves what changed. -/
def save (before after : Disk) : IO Unit :=
  (Disk.changes before.tree after.tree).forM apply

/-! ## The surroundings -/

/-- The homes of the users, and the home of the current one under the empty name. -/
def homes : IO Homes := do
  let table ← try IO.FS.readFile "/etc/passwd" catch _ => pure ""
  let own := ((← IO.getEnv "HOME").map fun home => ([], home.toList)).toList
  return own ++ Homes.ofTable table.toList

/-- The disk at the start: the way to the working directory. -/
def initialDisk : IO Disk := do
  let place ← IO.currentDir
  let workingDirectory := Path.segments place.toString.toList
  load false (.ofSegments workingDirectory) { workingDirectory }

/-! ## Runs -/

/-- Writes texts to the output and to the errors. -/
def write (output errors : Text) : IO Unit := do
  let out ← IO.getStdout
  out.putStr (String.ofList output)
  out.flush
  let err ← IO.getStderr
  err.putStr (String.ofList errors)
  err.flush

/-- Tells a failure that nothing answered, and gives the exit code for it. -/
def tell (f : Failure) : IO UInt32 := do
  write [] ("Error: " ++ f.message ++ "\n")
  return 1

/-- Runs a step on a console around the lines that it runs, and writes what it wrote. -/
def perform {α : Type} (lines : List Text) (step : Action Console α) (c : Console) :
    IO (Except Failure α × Console) := do
  let mut disk := c.state.world.disk
  for a in lines.flatMap c.state.shell.hostAddresses do
    disk ← load false a disk
  let state := { c.state with world := { c.state.world with disk } }
  let (result, c) := step.run { c with state, output := [], errors := [] }
  write c.output c.errors
  save disk c.state.world.disk
  return (result, c)

/-- Runs lines of the standard input that were read already, and then those that follow. The prompt
of the first one was written before it was read. -/
partial def runInput (c : Console) : List Text → IO UInt32
  | [] => do
      let (_, c) ← perform [] Console.prompt c
      let line ← (← IO.getStdin).getLine
      if line.isEmpty then return 0
      else runInput c (Console.inputLines (Text.unifyNewlines line.toList))
  | line :: rest => do
      match ← perform [line] (Console.feedLine line) c with
      | (.error f, _) => tell f
      | (.ok false, _) => return 0
      | (.ok true, c) =>
          if rest = [] then runInput c []
          else
            let (_, c) ← perform [] Console.prompt c
            runInput c rest

/-- Runs what a command line asks for. -/
def runInvocation (i : Invocation) : IO UInt32 := do
  let options := i.options
  let mut disk ← initialDisk
  if let some a := options.root then disk ← load true a disk
  write [] (Console.renderLog options.logLevel options.openingLog)
  let (opened, after) := options.openShell { homes := ← homes } disk
  save disk after
  match opened with
  | .error f => tell f
  | .ok state =>
      let c : Console := { state, level := options.logLevel }
      match i.task with
      | .lines => runInput c []
      | .script script =>
          match ← perform (Text.scriptLines script) (Console.runScript script) c with
          | (.error f, _) => tell f
          | (.ok succeeded, _) => return if succeeded then 0 else 1

end PipeShell.Program

open PipeShell in
/-- The program: reads its command line and runs it. -/
def main (args : List String) : IO UInt32 := do
  match Invocation.read (args.map String.toList) with
  | .error r =>
      Program.write r.output r.errors
      return r.exitCode.toUInt32
  | .ok i => Program.runInvocation i
