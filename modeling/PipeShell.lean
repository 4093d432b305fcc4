import PipeShell.Args.Basic
import PipeShell.Args.Grammar
import PipeShell.CommandLine.Console
import PipeShell.CommandLine.Flag
import PipeShell.CommandLine.Invocation
import PipeShell.CommandLine.Usage
import PipeShell.Disk.Address
import PipeShell.Disk.Basic
import PipeShell.Disk.Change
import PipeShell.Disk.Picker
import PipeShell.Disk.TextFile
import PipeShell.Failure
import PipeShell.Folder
import PipeShell.Log
import PipeShell.Main
import PipeShell.Number.Numeral
import PipeShell.Number.Rounding
import PipeShell.Path
import PipeShell.Pattern.Basic
import PipeShell.Pattern.Casing
import PipeShell.Pattern.Cursor
import PipeShell.Pattern.Escape
import PipeShell.Pattern.Fault
import PipeShell.Pattern.Parts
import PipeShell.Pattern.Reader
import PipeShell.Pattern.Search
import PipeShell.Pipeline.Basic
import PipeShell.Pipeline.Reader
import PipeShell.Shell.Basic
import PipeShell.Shell.Catalogue
import PipeShell.Shell.Exec
import PipeShell.Shell.Files
import PipeShell.Shell.HostNames
import PipeShell.Shell.LineOrder
import PipeShell.Shell.Meta
import PipeShell.Shell.Navigation
import PipeShell.Shell.Search
import PipeShell.Shell.TextCommands
import PipeShell.Store.Basic
import PipeShell.Store.Entry
import PipeShell.Store.Host
import PipeShell.Store.Memory
import PipeShell.Store.NodeTable
import PipeShell.Store.Setup
import PipeShell.Store.World
import PipeShell.Terminal.Editor
import PipeShell.Terminal.Keys
import PipeShell.Terminal.Session
import PipeShell.Text.Basic
import PipeShell.Text.Blank
import PipeShell.Text.Case
import PipeShell.Text.Digit
import PipeShell.Text.Encoding
import PipeShell.Text.Identifier
import PipeShell.Text.Letter
import PipeShell.Text.Lines
import PipeShell.Text.Printable
import PipeShell.Text.Quoted
import PipeShell.Text.Ranges
import PipeShell.Text.Utf8
import PipeShell.Text.WordChar
import PipeShell.Token
import PipeShell.Verb
import PipeShell.Proofs.Text.Pieces
import PipeShell.Proofs.Path.Segments
import PipeShell.Proofs.Path.Resolve
import PipeShell.Proofs.Folder.Bindings
import PipeShell.Proofs.Folder.Alter
import PipeShell.Proofs.Store.Action
import PipeShell.Proofs.Store.Memory
import PipeShell.Proofs.Store.PathMap
import PipeShell.Proofs.Store.Settled
import PipeShell.Proofs.Store.Displayed
import PipeShell.Proofs.Disk.Walk
import PipeShell.Proofs.Disk.Tidy
import PipeShell.Proofs.Store.Host
import PipeShell.Proofs.Store.Tidy
import PipeShell.Proofs.Disk.Picked
import PipeShell.Proofs.Store.Calls
import PipeShell.Proofs.Pattern.Limits
import PipeShell.Proofs.Shell.Commands
import PipeShell.Proofs.Shell.Dialogue
import PipeShell.Proofs.Shell.Shown
import PipeShell.Proofs.Shell.Stage
import PipeShell.Proofs.Shell.Move
import PipeShell.Proofs.Token.Quoting
import PipeShell.Proofs.Text.Trimmed
import PipeShell.Proofs.Pipeline.Words
import PipeShell.Proofs.Pipeline.Written
import PipeShell.Proofs.Terminal.Screen
import PipeShell.Proofs.Terminal.Echo
import PipeShell.Proofs.Terminal.Keys
import PipeShell.Proofs.Terminal.Reads
import PipeShell.Proofs.Store.Tie
import PipeShell.Proofs.Text.Within
import PipeShell.Proofs.Shell.Pairing
import PipeShell.Proofs.Shell.Outputs
import PipeShell.Proofs.Shell.Paired
import PipeShell.Proofs.Shell.PairedRuns
import PipeShell.Proofs.Shell.Calls
import PipeShell.Proofs.Shell.Allowed
import PipeShell.Proofs.Disk.Forward
import PipeShell.Proofs.Folder.Entries
import PipeShell.Proofs.Shell.Listing
import PipeShell.Proofs.Disk.Apart
import PipeShell.Proofs.Text.Utf8
import PipeShell.Proofs.Store.Mirror
import PipeShell.Proofs.Store.Mirrored
import PipeShell.Proofs.Store.Twin
import PipeShell.Proofs.Pipeline.Letters
import PipeShell.Proofs.Shell.Twins
import PipeShell.Proofs.Shell.Interchange
import PipeShell.Proofs.Terminal.Replay
import PipeShell.Proofs.Store.Quota
import PipeShell.Proofs.Store.Listed
import PipeShell.Proofs.Store.RollBack
import PipeShell.Proofs.Text.Lines
import PipeShell.Proofs.Args.Keys
import PipeShell.Proofs.Shell.Piped
import PipeShell.Proofs.Store.Failed
import PipeShell.Proofs.Disk.Agree
import PipeShell.Proofs.Disk.Inside
import PipeShell.Proofs.Store.Inside
import PipeShell.Proofs.Disk.Made
import PipeShell.Proofs.Store.Requests
import PipeShell.Proofs.Store.Escapes
import PipeShell.Proofs.Store.Confined
import PipeShell.Proofs.Token.Cuts
import PipeShell.Proofs.Pipeline.Joined
import PipeShell.Proofs.Number.Digits
import PipeShell.Proofs.Args.Counts
import PipeShell.Proofs.Shell.Unreadable
import PipeShell.Proofs.Shell.Sequence
import PipeShell.Proofs.Shell.FromPipe
import PipeShell.Proofs.Pipeline.CommandWord
import PipeShell.Proofs.Store.CopiedBytes
import PipeShell.Proofs.Shell.Concat
import PipeShell.Proofs.Store.Outside
import PipeShell.Proofs.Shell.FileCommands
import PipeShell.Proofs.Shell.Reach
import PipeShell.Proofs.Token.Groups
import PipeShell.Proofs.Terminal.Recall
import PipeShell.Proofs.Terminal.Editing
import PipeShell.Proofs.Shell.Observers
import PipeShell.Proofs.Shell.Appending
import PipeShell.Proofs.Token.Segments
import PipeShell.Proofs.Args.LastCount
import PipeShell.Proofs.Shell.Answers
import PipeShell.Proofs.Shell.LineCounts
import PipeShell.Proofs.Shell.Sorted
import PipeShell.Proofs.Shell.SortedOnce
import PipeShell.Proofs.Number.Front
import PipeShell.Proofs.Shell.RunLengths
import PipeShell.Proofs.Shell.Differences
import PipeShell.Proofs.Folder.Arranged
import PipeShell.Proofs.Folder.Outline
import PipeShell.Proofs.Shell.Children
import PipeShell.Proofs.Shell.TreeLines
import PipeShell.Proofs.Shell.OneLevel
import PipeShell.Proofs.Args.Switches
import PipeShell.Proofs.Args.SearchUnits
import PipeShell.Proofs.Args.FlagPlaces
import PipeShell.Proofs.Shell.Sources
import PipeShell.Proofs.Shell.Searched
import PipeShell.Proofs.Shell.Counted
import PipeShell.Proofs.Text.ScriptLines
import PipeShell.Proofs.Shell.Scripts
import PipeShell.Proofs.Shell.Trace
import PipeShell.Proofs.Shell.Debug
import PipeShell.Proofs.Shell.OutputLimit
import PipeShell.Proofs.Store.Root
import PipeShell.Proofs.Store.NodeTable
import PipeShell.Proofs.Terminal.KeyForms
import PipeShell.Proofs.Path.Composed
import PipeShell.Proofs.Shell.Directions
import PipeShell.Proofs.Text.FrontReader
import PipeShell.Proofs.Text.Printable
import PipeShell.Proofs.Text.Literal
import PipeShell.Proofs.Args.Settings
import PipeShell.Proofs.Pipeline.Described
