import PipeShell.Text.Utf8

/-!
# Reading what was encoded

Decoding goes on from chunk to chunk, and gives back a text from its bytes.
-/

namespace PipeShell.Text

theorem decodeChunk_append (started : Option Started) (a b : List UInt8) :
    decodeChunk started (a ++ b)
      = ((decodeChunk started a).1 ++ (decodeChunk (decodeChunk started a).2 b).1,
        (decodeChunk (decodeChunk started a).2 b).2) := by
  induction a generalizing started with
  | nil => rfl
  | cons byte a ih => simp [decodeChunk, ih]

/-! ## One character -/

theorem startChar_one {n : Nat} (h : n < 0x80) :
    startChar (UInt8.ofNat n) = ([Char.ofNat n], none) := by
  have hn : (UInt8.ofNat n).toNat = n := by simp; omega
  simp only [startChar, hn, if_pos h]

theorem startChar_two {n : Nat} (hlow : 2 ≤ n) (h : n < 0x20) :
    startChar (UInt8.ofNat (n + 0xC0)) = ([], some ⟨n, 1, 0x80, 0xBF⟩) := by
  have hn : (UInt8.ofNat (n + 0xC0)).toNat = n + 0xC0 := by simp; omega
  simp only [startChar, hn]
  rw [if_neg (by omega), if_neg (by omega), if_pos (by omega), Nat.add_sub_cancel]

theorem startChar_three {n : Nat} (h : n < 0x10) :
    startChar (UInt8.ofNat (n + 0xE0))
      = ([], some ⟨n, 2, if n = 0 then 0xA0 else 0x80, if n = 0xD then 0x9F else 0xBF⟩) := by
  have hn : (UInt8.ofNat (n + 0xE0)).toNat = n + 0xE0 := by simp; omega
  simp only [startChar, hn]
  rw [if_neg (by omega), if_neg (by omega), if_neg (by omega), if_pos (by omega), Nat.add_sub_cancel]
  simp

theorem startChar_four {n : Nat} (h : n < 5) :
    startChar (UInt8.ofNat (n + 0xF0))
      = ([], some ⟨n, 3, if n = 0 then 0x90 else 0x80, if n = 4 then 0x8F else 0xBF⟩) := by
  have hn : (UInt8.ofNat (n + 0xF0)).toNat = n + 0xF0 := by simp; omega
  simp only [startChar, hn]
  rw [if_neg (by omega), if_neg (by omega), if_neg (by omega), if_neg (by omega), if_pos (by omega),
    Nat.add_sub_cancel]
  simp

theorem decodeByte_more {bits owed n : Nat} {low high : UInt8} (h : n < 0x40)
    (hlow : low.toNat ≤ n + 0x80) (hhigh : n + 0x80 ≤ high.toNat) :
    decodeByte (some ⟨bits, owed, low, high⟩) (UInt8.ofNat (n + 0x80))
      = if owed ≤ 1 then ([Char.ofNat (bits * 64 + n)], none)
        else ([], some ⟨bits * 64 + n, owed - 1, 0x80, 0xBF⟩) := by
  have hn : (UInt8.ofNat (n + 0x80)).toNat = n + 0x80 := by simp; omega
  have hwithin : (low ≤ UInt8.ofNat (n + 0x80) && UInt8.ofNat (n + 0x80) ≤ high) = true := by
    simp only [UInt8.le_iff_toNat_le, hn, hlow, hhigh, decide_true, Bool.and_self]
  simp only [decodeByte, hwithin, if_true, hn, Nat.add_sub_cancel]

theorem decodeChunk_encodeChar (c : Char) :
    decodeChunk none (String.utf8EncodeChar c) = ([c], none) := by
  have hvalid : c.toNat < 0xD800 ∨ 0xDFFF < c.toNat ∧ c.toNat < 0x110000 := c.valid
  have hc : Char.ofNat c.toNat = c := Char.ofNat_toNat c
  generalize hn : c.toNat = n at hvalid hc
  have hval : c.val.toNat = n := hn
  have hjoin {m : Nat} (hm : m = n) : Char.ofNat m = c := by rw [hm, hc]
  simp only [String.utf8EncodeChar, hval]
  split
  · simp only [decodeChunk, decodeByte]
    rw [startChar_one (by omega), hc]
    rfl
  · split
    · simp only [decodeChunk]
      rw [decodeByte, startChar_two (by omega) (by omega)]
      simp only
      rw [decodeByte_more (by omega) (by simp) (by simp; omega), if_pos (by omega)]
      simp only [List.nil_append, List.append_nil, hjoin (show n / 64 % 32 * 64 + n % 64 = n by omega)]
    · split
      · simp only [decodeChunk]
        rw [decodeByte, startChar_three (by omega)]
        simp only
        rw [decodeByte_more (by omega) (by split <;> simp; omega) (by split <;> simp <;> omega),
          if_neg (by omega)]
        simp only
        rw [decodeByte_more (by omega) (by simp) (by simp; omega), if_pos (by omega)]
        simp only [List.nil_append, List.append_nil,
          hjoin (show (n / 4096 % 16 * 64 + n / 64 % 64) * 64 + n % 64 = n by omega)]
      · simp only [decodeChunk]
        rw [decodeByte, startChar_four (by omega)]
        simp only
        rw [decodeByte_more (by omega) (by split <;> simp; omega) (by split <;> simp <;> omega),
          if_neg (by omega)]
        simp only
        rw [decodeByte_more (by omega) (by simp) (by simp; omega), if_neg (by omega)]
        simp only
        rw [decodeByte_more (by omega) (by simp) (by simp; omega), if_pos (by omega)]
        simp only [List.nil_append, List.append_nil,
          hjoin (show ((n / 262144 % 8 * 64 + n / 4096 % 64) * 64 + n / 64 % 64) * 64 + n % 64 = n
            by omega)]

theorem decodeChunk_encode (t : Text) : decodeChunk none (encode t) = (t, none) := by
  induction t with
  | nil => rfl
  | cons c t ih =>
      have hcons : encode (c :: t) = String.utf8EncodeChar c ++ encode t := rfl
      rw [hcons, decodeChunk_append, decodeChunk_encodeChar, ih]
      rfl

theorem decode_encode (t : Text) : decode (encode t) = t := by
  simp only [decode, decodeChunk_encode]

/-! ## Counting bytes -/

theorem length_encode (t : Text) : (encode t).length = byteLength t := by
  induction t with
  | nil => rfl
  | cons c t ih =>
      have hcons : encode (c :: t) = String.utf8EncodeChar c ++ encode t := rfl
      rw [hcons, List.length_append, String.length_utf8EncodeChar, ih]
      rfl

end PipeShell.Text
