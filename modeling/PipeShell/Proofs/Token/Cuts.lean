import PipeShell.Proofs.Text.Trimmed
import PipeShell.Proofs.Token.Quoting

/-!
# Cutting longer lines

Where a line is cut when it goes on. Behind a text whose quotes are closed the cuts start anew after
a pipe character, and blanks around a line only show as blanks of its first and last piece.
-/

namespace PipeShell.Token

variable {opened : Option Char} {t after : Text}

/-- The quote that is open behind a text, when `opened` is open before it. -/
def openBehind (opened : Option Char) (t : Text) : Option Char :=
  t.foldl nextQuote opened

/-- Every quote in the text is closed. -/
def Closed (t : Text) : Prop :=
  openBehind none t = none

instance (t : Text) : Decidable (Closed t) :=
  inferInstanceAs (Decidable (openBehind none t = none))

theorem inFront_append {pieces : List Text} (h : pieces ≠ []) (t : Text) (more : List Text) :
    inFront t (pieces ++ more) = inFront t pieces ++ more := by
  cases pieces with
  | nil => exact absurd rfl h
  | cons s rest => rfl

theorem segmentsFrom_append_pipe (h : openBehind opened t = none) (u : Text) :
    segmentsFrom opened (t ++ '|' :: u) = segmentsFrom opened t ++ segmentsFrom none u := by
  induction t generalizing opened with
  | nil =>
      obtain rfl : opened = none := h
      simp [segmentsFrom]
  | cons c t ih =>
      by_cases hcut : opened = none ∧ c = '|'
      · obtain ⟨rfl, rfl⟩ := hcut
        have hrest : openBehind none t = none := h
        rw [List.cons_append, segmentsFrom, if_pos ⟨rfl, rfl⟩, ih hrest, segmentsFrom,
          if_pos ⟨rfl, rfl⟩]
        rfl
      · rw [List.cons_append, segmentsFrom_cons hcut, segmentsFrom_cons hcut, ih h,
          inFront_append (segmentsFrom_ne_nil _ _)]

/-- A text with closed quotes, a pipe character and a second text are cut like the two texts. -/
theorem segments_append_pipe (h : Closed t) (u : Text) :
    segments (t ++ '|' :: u) = segments t ++ segments u :=
  segmentsFrom_append_pipe h u

/-! ## Blanks around a line -/

theorem plain_of_isBlank {c : Char} (h : Text.isBlank c = true) : isQuote c = false ∧ c ≠ '|' := by
  have hne (d : Char) (hd : Text.isBlank d = false) : c ≠ d := by
    rintro rfl
    simp [h] at hd
  exact ⟨by simp [isQuote, hne '"' (by decide), hne '\'' (by decide)], hne '|' (by decide)⟩

theorem segmentsFrom_of_not_mem (h : '|' ∉ t) : segmentsFrom opened t = [t] := by
  induction t generalizing opened with
  | nil => rfl
  | cons c t ih =>
      obtain ⟨hc, ht⟩ : '|' ≠ c ∧ '|' ∉ t := by simpa using h
      rw [segmentsFrom_cons (fun h => hc h.2.symm), ih ht]
      rfl

/-- What has no pipe character stays with the last piece, in quotes or not. -/
theorem segmentsFrom_append (opened : Option Char) (t : Text) (h : '|' ∉ after) :
    ∃ front last, segmentsFrom opened t = front ++ [last]
      ∧ segmentsFrom opened (t ++ after) = front ++ [last ++ after] := by
  induction t generalizing opened with
  | nil => exact ⟨[], [], rfl, segmentsFrom_of_not_mem h⟩
  | cons c t ih =>
      by_cases hcut : opened = none ∧ c = '|'
      · obtain ⟨front, last, ht, hta⟩ := ih none
        refine ⟨[] :: front, last, ?_, ?_⟩
        · rw [segmentsFrom, if_pos hcut, ht]
          rfl
        · rw [List.cons_append, segmentsFrom, if_pos hcut, hta]
          rfl
      · obtain ⟨front, last, ht, hta⟩ := ih (nextQuote opened c)
        rw [List.cons_append, segmentsFrom_cons hcut, segmentsFrom_cons hcut, ht, hta]
        cases front with
        | nil => exact ⟨[], c :: last, rfl, rfl⟩
        | cons s front => exact ⟨(c :: s) :: front, last, rfl, rfl⟩

/-- Blanks around a line do not show in its stripped pieces. -/
theorem map_strip_segments_strip (line : Text) :
    (segments (Text.strip line)).map Text.strip = (segments line).map Text.strip := by
  obtain ⟨before, after, hb, ha, hline⟩ := Text.exists_blanks_strip line
  -- A quote may be open behind the line, so the blanks there need not be text outside of quotes.
  have hafter : '|' ∉ after := fun h => (plain_of_isBlank (ha _ h)).2 rfl
  obtain ⟨front, last, hstrip, happend⟩ :=
    segmentsFrom_append none (Text.strip line) hafter
  have hwrites := (writes_plain fun c hc => plain_of_isBlank (hb c hc)).segmentsFrom_append
    (Text.strip line ++ after)
  have hcut : segments line = inFront before (front ++ [last ++ after]) := by
    rw [← happend, ← hwrites, ← List.append_assoc, ← hline]
    rfl
  rw [hcut, segments, hstrip]
  have hlast := Text.strip_append_blank ha last
  cases front with
  | nil => simp [inFront, Text.strip_blank_append hb, hlast]
  | cons s front => simp [inFront, Text.strip_blank_append hb, hlast]

end PipeShell.Token
