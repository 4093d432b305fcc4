import PipeShell.Failure
import PipeShell.Text.Case
import PipeShell.Text.Utf8

/-!
# Encodings

How a text is written to bytes and read back. Reading never fails: what is no character is replaced.
-/

namespace PipeShell

/-- The encodings of text files. Every other name is taken for the name of none. -/
inductive Encoding
  | utf8
  | latin1
  | ascii
  | unknown (name : Text)
  deriving DecidableEq, Repr

namespace Encoding

/-- The encoding of a name, in any letter case and with hyphens or underscores. -/
def ofName (name : Text) : Encoding :=
  let key := (Text.lower name).map fun c => if c == '_' then '-' else c
  if key ∈ ["utf-8".toList, "utf8".toList, "u8".toList] then utf8
  else if key ∈ ["latin-1".toList, "latin1".toList, "iso-8859-1".toList, "l1".toList] then latin1
  else if key ∈ ["ascii".toList, "us-ascii".toList, "646".toList] then ascii
  else unknown name

/-- The bytes of a text whose characters have the codes below `limit`; the first run of others is
refused. -/
def encodeBelow (name : Text) (limit : Nat) (t : Text) : Except Failure (List UInt8) :=
  let good := t.takeWhile (·.toNat < limit)
  match t.drop good.length with
  | [] => .ok (t.map fun c => c.toNat.toUInt8)
  | c :: rest =>
      let more := rest.takeWhile (limit ≤ ·.toNat)
      .error (.unencodable name limit c good.length (good.length + more.length))

/-- The bytes of a text. -/
def encode : Encoding → Text → Except Failure (List UInt8)
  | utf8, t => .ok (Text.encode t)
  | latin1, t => encodeBelow "latin-1" 256 t
  | ascii, t => encodeBelow "ascii" 128 t
  | unknown name, _ => .error (.unknownEncoding name)

/-- The text of bytes. -/
def decode : Encoding → List UInt8 → Except Failure Text
  | utf8, bytes => .ok (Text.decode bytes)
  | latin1, bytes => .ok (bytes.map fun b => Char.ofNat b.toNat)
  | ascii, bytes =>
      .ok (bytes.map fun b => if b < 128 then Char.ofNat b.toNat else Text.replacement)
  | unknown name, _ => .error (.unknownEncoding name)

end Encoding

end PipeShell
