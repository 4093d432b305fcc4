import PipeShell.Disk.Basic
import PipeShell.Text.Encoding
import PipeShell.Text.Lines

/-!
# Text files on disk

A text is written as it is, and read with unified newlines.
-/

namespace PipeShell.Disk

/-- The text that the bytes of a file stand for. -/
def textOf (encoding : Encoding) (bytes : Bytes) : Except Failure Text :=
  (encoding.decode bytes).map Text.unifyNewlines

/-- Writes a text to the file at an address. When the text cannot be encoded the file is left
empty. -/
def writeText (encoding : Encoding) (a : Address) (t : Text) : Action Disk Unit :=
  match encoding.encode t with
  | .ok bytes => write a bytes
  | .error f => do
      write a []
      throw f

end PipeShell.Disk
