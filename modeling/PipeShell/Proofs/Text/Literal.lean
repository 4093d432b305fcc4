import Mathlib.Algebra.Ring.Nat
import PipeShell.Pattern.Escape
import PipeShell.Proofs.Text.FrontReader
import PipeShell.Proofs.Text.Printable
import PipeShell.Text.Quoted

/-!
# Quoted texts read back

A text in quotes is a literal: it can be read back, whatever comes behind it, and it is made of
printable characters only.
-/

namespace PipeShell.Text

open Pattern.Read (numberIn digitOf)

variable {c quote : Char} {n width : Nat}

/-! ## Reading literals -/

/-- A character that is given by so many hexadecimal digits. -/
def codePoint? (width : Nat) : FrontReader Char :=
  fun t => some (Char.ofNat (numberIn 16 (t.take width)), t.drop width)

/-- The character that is escaped by what stands behind a backslash. -/
def escaped? : FrontReader Char
  | [] => none
  | c :: t =>
      if c = 'n' then some ('\n', t)
      else if c = 'r' then some ('\r', t)
      else if c = 't' then some ('\t', t)
      else if c = 'x' then codePoint? 2 t
      else if c = 'u' then codePoint? 4 t
      else if c = 'U' then codePoint? 8 t
      else if c = '\\' ∨ c = '\'' ∨ c = '"' then some (c, t)
      else none

/-- A character of a text in such quotes, as itself or escaped. -/
def character? (quote : Char) : FrontReader Char
  | [] => none
  | c :: t =>
      if c = quote then none
      else if c = '\\' then escaped? t
      else some (c, t)

/-- A text in single or double quotes. -/
def quoted? : FrontReader Text
  | [] => none
  | quote :: t =>
      if quote = '\'' ∨ quote = '"' then
        let (content, t) := FrontReader.many (character? quote) t
        (t.dropPrefix? [quote]).map (content, ·)
      else none

/-! ## Hexadecimal digits -/

theorem digitOf_digitChar : ∀ d < 16, digitOf (Nat.digitChar d) = d := by
  decide

theorem numberIn_append (base : Nat) (digits more : Text) :
    numberIn base (digits ++ more)
      = more.foldl (fun n c => base * n + digitOf c) (numberIn base digits) :=
  List.foldl_append

theorem numberIn_toDigits (n : Nat) : numberIn 16 (Nat.toDigits 16 n) = n := by
  induction n using Nat.strongRecOn with
  | ind n ih =>
      rw [Nat.toDigits_eq_if (by decide)]
      split
      · rename_i hn
        simp [numberIn, digitOf_digitChar n hn]
      · have hsmaller := ih (n / 16) (by omega)
        have hdigit := digitOf_digitChar (n % 16) (by omega)
        rw [numberIn_append, hsmaller, List.foldl_cons, List.foldl_nil, hdigit]
        omega

theorem numberIn_hex (width n : Nat) : numberIn 16 (hex width n) = n := by
  have hzeros (k : Nat) : numberIn 16 (List.replicate k '0') = 0 := by
    induction k with
    | zero => rfl
    | succ k ih => rw [List.replicate_succ', numberIn_append, ih]; rfl
  rw [hex, numberIn_append, hzeros]
  exact numberIn_toDigits n

theorem length_hex (hw : 0 < width) (hn : n < 16 ^ width) : (hex width n).length = width := by
  have hlength := (Nat.length_toDigits_le_iff (by decide : 1 < 16) hw).mpr hn
  rw [hex, List.length_append, List.length_replicate]
  omega

/-- A character is read back from its code in hexadecimal digits. -/
theorem codePoint?_hex (hw : 0 < width) (hn : c.toNat < 16 ^ width) (rest : Text) :
    codePoint? width (hex width c.toNat ++ rest) = some (c, rest) := by
  have hlength := length_hex hw hn
  rw [codePoint?, List.take_left' hlength, List.drop_left' hlength, numberIn_hex, Char.ofNat_toNat]

/-! ## Reading back -/

theorem character?_backslash (hquote : quote ≠ '\\') (t : Text) :
    character? quote ('\\' :: t) = escaped? t := by
  simp [character?, hquote.symm]

theorem character?_codeEscape (hquote : quote ≠ '\\') (c : Char) (rest : Text) :
    character? quote (codeEscape c ++ rest) = some (c, rest) := by
  rw [codeEscape]
  split
  · rename_i hn
    exact (character?_backslash hquote _).trans (codePoint?_hex (by decide : 0 < 2) hn rest)
  · split
    · rename_i hn
      exact (character?_backslash hquote _).trans (codePoint?_hex (by decide : 0 < 4) hn rest)
    · exact (character?_backslash hquote _).trans
        (codePoint?_hex (by decide : 0 < 8) c.val.toNat_lt rest)

/-- Every character is read back from what stands for it between quotes. -/
theorem readsBack_escapeChar (hquote : quote = '\'' ∨ quote = '"') (c : Char) :
    (character? quote).ReadsBack (fun _ => True) (escapeChar quote) c := by
  intro rest _
  have hslash : quote ≠ '\\' := by rcases hquote with rfl | rfl <;> decide
  rw [escapeChar]
  split
  · rename_i hc
    refine (character?_backslash hslash _).trans ?_
    rcases (by simpa using hc : c = quote ∨ c = '\\') with rfl | rfl
    · rcases hquote with rfl | rfl <;> rfl
    · rfl
  · rename_i hc
    obtain ⟨hcquote, hcslash⟩ : c ≠ quote ∧ c ≠ '\\' := by simpa using hc
    split
    · rename_i hn
      obtain rfl : c = '\n' := by simpa using hn
      exact character?_backslash hslash _
    · split
      · rename_i hr
        obtain rfl : c = '\r' := by simpa using hr
        exact character?_backslash hslash _
      · split
        · rename_i ht
          obtain rfl : c = '\t' := by simpa using ht
          exact character?_backslash hslash _
        · split
          · simp [character?, hcquote, hcslash]
          · exact character?_codeEscape hslash c rest

theorem quoteFor_eq (t : Text) : quoteFor t = '\'' ∨ quoteFor t = '"' := by
  rw [quoteFor]
  split
  · exact .inr rfl
  · exact .inl rfl

/-- A text is read back from its quotes, whatever comes behind. -/
theorem readsBack_quoted (t : Text) : quoted?.ReadsBack (fun _ => True) quoted t := by
  intro rest _
  have hquote := quoteFor_eq t
  have hcontent : FrontReader.many (character? (quoteFor t))
      (t.flatMap (escapeChar (quoteFor t)) ++ quoteFor t :: rest) = (t, quoteFor t :: rest) :=
    FrontReader.many_flatMap (fun c _ => readsBack_escapeChar hquote c) (fun _ _ _ => trivial)
      trivial (by simp [character?])
  have hwritten : quoted t ++ rest
      = quoteFor t :: (t.flatMap (escapeChar (quoteFor t)) ++ quoteFor t :: rest) := by
    simp [quoted]
  rw [hwritten, quoted?, if_pos hquote, hcontent]
  simp [List.dropPrefix?]

/-! ## Printable characters -/

theorem isPrintable_digitChar : ∀ d < 16, isPrintable (Nat.digitChar d) = true := by
  decide

theorem printable_toDigits (n : Nat) : Printable (Nat.toDigits 16 n) := by
  induction n using Nat.strongRecOn with
  | ind n ih =>
      rw [Nat.toDigits_eq_if (by decide)]
      split
      · rename_i hn
        simpa using isPrintable_digitChar n hn
      · simpa using ⟨ih (n / 16) (by omega), isPrintable_digitChar (n % 16) (by omega)⟩

theorem printable_hex (width n : Nat) : Printable (hex width n) := by
  rw [hex, printable_append]
  refine ⟨fun c hc => ?_, printable_toDigits n⟩
  rw [List.eq_of_mem_replicate hc]
  decide

theorem printable_codeEscape (c : Char) : Printable (codeEscape c) := by
  rw [codeEscape]
  split
  · simpa using ⟨by decide, by decide, printable_hex _ _⟩
  · split
    · simpa using ⟨by decide, by decide, printable_hex _ _⟩
    · simpa using ⟨by decide, by decide, printable_hex _ _⟩

theorem printable_escapeChar (hquote : quote = '\'' ∨ quote = '"') (c : Char) :
    Printable (escapeChar quote c) := by
  rw [escapeChar]
  split
  · rename_i hc
    have hc : isPrintable c = true := by
      rcases (by simpa using hc : c = quote ∨ c = '\\') with rfl | rfl
      · rcases hquote with rfl | rfl <;> decide
      · decide
    simpa using ⟨by decide, hc⟩
  · split
    · decide
    · split
      · decide
      · split
        · decide
        · split
          · rename_i hc
            simpa using hc
          · exact printable_codeEscape c

theorem printable_quoted (t : Text) : Printable (quoted t) := by
  have hquote := quoteFor_eq t
  have hmark : isPrintable (quoteFor t) = true := by rcases hquote with h | h <;> rw [h] <;> decide
  have hcontent : Printable (t.flatMap (escapeChar (quoteFor t))) := by
    intro d hd
    obtain ⟨c, -, hd⟩ := List.mem_flatMap.mp hd
    exact printable_escapeChar hquote c d hd
  simp [quoted, hmark, hcontent]

end PipeShell.Text
