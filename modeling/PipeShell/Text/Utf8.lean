import PipeShell.Text.Basic

/-!
# UTF-8

Encoding, and decoding that never fails: each longest start of a character that the next byte does
not continue becomes one replacement character. The decoder is a machine over bytes, so that a
stream may arrive in chunks.
-/

namespace PipeShell.Text

/-- The bytes of a text. -/
def encode (t : Text) : List UInt8 :=
  t.flatMap String.utf8EncodeChar

/-- The number of bytes of a text. -/
def byteLength (t : Text) : Nat :=
  t.foldr (fun c n => c.utf8Size + n) 0

/-- Stands for bytes that are no character. -/
def replacement : Char := '\uFFFD'

/-- A started character: the bits so far, the bytes owed, and the bounds of the next byte. -/
structure Started where
  bits : Nat
  owed : Nat
  low : UInt8
  high : UInt8
  deriving DecidableEq

/-- The first byte of a character: a whole character, a start, or neither. -/
def startChar (b : UInt8) : Text × Option Started :=
  let n := b.toNat
  if n < 0x80 then ([Char.ofNat n], none)
  else if n < 0xC2 then ([replacement], none)
  else if n < 0xE0 then ([], some ⟨n - 0xC0, 1, 0x80, 0xBF⟩)
  else if n < 0xF0 then
    ([], some ⟨n - 0xE0, 2, if n = 0xE0 then 0xA0 else 0x80, if n = 0xED then 0x9F else 0xBF⟩)
  else if n < 0xF5 then
    ([], some ⟨n - 0xF0, 3, if n = 0xF0 then 0x90 else 0x80, if n = 0xF4 then 0x8F else 0xBF⟩)
  else ([replacement], none)

/-- The characters that a byte completes, and what is started after it. -/
def decodeByte (state : Option Started) (b : UInt8) : Text × Option Started :=
  match state with
  | none => startChar b
  | some s =>
      if s.low ≤ b && b ≤ s.high then
        let bits := s.bits * 64 + (b.toNat - 0x80)
        if s.owed ≤ 1 then ([Char.ofNat bits], none)
        else ([], some ⟨bits, s.owed - 1, 0x80, 0xBF⟩)
      else
        let (t, next) := startChar b
        (replacement :: t, next)

/-- The characters of a chunk of a stream, and what is started after it. -/
def decodeChunk (state : Option Started) : List UInt8 → Text × Option Started
  | [] => ([], state)
  | b :: rest =>
      let (t, next) := decodeByte state b
      let (more, last) := decodeChunk next rest
      (t ++ more, last)

/-- The text of a whole stream; a character that the end cuts off is replaced. -/
def decode (bytes : List UInt8) : Text :=
  match decodeChunk none bytes with
  | (t, none) => t
  | (t, some _) => t ++ [replacement]

/-- The text that the bytes encode, if they encode one. -/
def decode? (bytes : List UInt8) : Option Text :=
  let t := decode bytes
  if encode t = bytes then some t else none

end PipeShell.Text
