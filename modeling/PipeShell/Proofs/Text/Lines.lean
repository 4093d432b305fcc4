import PipeShell.Proofs.Text.Pieces
import PipeShell.Text.Lines

/-!
# Lines and their joining

Lines that are joined and cut again come back, up to a blank line at the end: joining puts no line
feed behind the last line, and cutting takes a line feed at the end for the end of a line.
-/

namespace PipeShell.Text

variable {ls : List Text}

theorem dropFinalNewline_concat (t : Text) : dropFinalNewline (t ++ ['\n']) = t := by
  simp [dropFinalNewline]

theorem dropFinalNewline_of_open (h : t.getLast? ≠ some '\n') : dropFinalNewline t = t := by
  simp [dropFinalNewline, h]

theorem lines_eq (t : Text) :
    lines t = if dropFinalNewline t = [] then [] else pieces (· == '\n') (dropFinalNewline t) := by
  unfold lines
  split <;> simp_all

theorem newline_not_mem_lines {t line : Text} (h : line ∈ lines t) : '\n' ∉ line := by
  rw [lines_eq] at h
  split at h
  · cases h
  · exact fun hmem => by simpa using not_cut_of_mem_pieces h '\n' hmem

theorem joinLines_concat (h : ls ≠ []) (line : Text) :
    joinLines (ls ++ [line]) = joinLines ls ++ '\n' :: line := by
  induction ls with
  | nil => exact absurd rfl h
  | cons first ls ih =>
      cases ls with
      | nil => simp [joinLines, join]
      | cons second ls =>
          have ih : join ['\n'] (second :: ls ++ [line])
              = join ['\n'] (second :: ls) ++ '\n' :: line := ih (by simp)
          rw [joinLines, joinLines, List.cons_append, join_cons _ first (by simp),
            join_cons _ first (by simp), ih]
          simp

theorem joinLines_eq_nil_iff : joinLines ls = [] ↔ ls = [] ∨ ls = [[]] := by
  cases ls with
  | nil => simp [joinLines, join]
  | cons line ls =>
      cases ls with
      | nil => simp [joinLines]
      | cons second ls => simp [joinLines, join_cons]

/-- Joined lines end like their last line. -/
theorem getLast?_joinLines (hls : ∀ line ∈ ls, '\n' ∉ line) (hlast : ls.getLast? ≠ some []) :
    (joinLines ls).getLast? ≠ some '\n' := by
  rcases List.eq_nil_or_concat ls with rfl | ⟨front, last, rfl⟩
  · simp [joinLines, join]
  · have hopen : last ≠ [] := fun h => hlast (by simp [h])
    have hfree : '\n' ∉ last := hls last (by simp)
    have hend : last.getLast? ≠ some '\n' := fun h => hfree (List.mem_of_getLast? h)
    by_cases hfront : front = []
    · subst hfront
      exact hend
    · rw [List.concat_eq_append, joinLines_concat hfront, List.getLast?_append, List.getLast?_cons]
      cases hl : last.getLast? with
      | none => exact absurd (List.getLast?_eq_none_iff.mp hl) hopen
      | some c => simpa [hl] using hend

theorem lines_joinLines_of_last (hls : ∀ line ∈ ls, '\n' ∉ line) (hlast : ls.getLast? ≠ some []) :
    lines (joinLines ls) = ls := by
  rw [lines_eq, dropFinalNewline_of_open (getLast?_joinLines hls hlast)]
  by_cases hnil : joinLines ls = []
  · rcases joinLines_eq_nil_iff.mp hnil with rfl | rfl
    · rfl
    · exact absurd rfl hlast
  · have hne : ls ≠ [] := fun h => hnil (joinLines_eq_nil_iff.mpr (.inl h))
    rw [if_neg hnil, joinLines, pieces_join hls hne]

theorem lines_joinLines_blank (hls : ∀ line ∈ ls, '\n' ∉ line) :
    lines (joinLines (ls ++ [[]])) = if ls = [[]] then [] else ls := by
  by_cases hne : ls = []
  · subst hne
    rfl
  · rw [joinLines_concat hne, lines_eq, dropFinalNewline_concat]
    by_cases hblank : ls = [[]]
    · simp [hblank, joinLines]
    · have hnil : joinLines ls ≠ [] := fun h =>
        (joinLines_eq_nil_iff.mp h).elim hne hblank
      rw [if_neg hnil, if_neg hblank, joinLines, pieces_join hls hne]

/-- Joined lines are cut into the same lines again, except that a blank last line is lost, and with
it the only line before it if that is blank as well. -/
theorem lines_joinLines (hls : ∀ line ∈ ls, '\n' ∉ line) :
    lines (joinLines ls)
      = if ls.getLast? = some [] then (if ls = [[], []] then [] else ls.dropLast) else ls := by
  by_cases hlast : ls.getLast? = some []
  · obtain ⟨front, rfl⟩ := List.getLast?_eq_some_iff.mp hlast
    rw [lines_joinLines_blank fun line h => hls line (by simp [h])]
    have hpair : front ++ [[]] = [[]] ++ [[]] ↔ front = [[]] := List.append_left_inj _
    rw [List.singleton_append] at hpair
    simp [hpair]
  · rw [if_neg hlast, lines_joinLines_of_last hls hlast]

/-- Lines in front of a blank one can all be cut out of the text. -/
theorem lines_joinLines_ended (hls : ∀ line ∈ ls, '\n' ∉ line) :
    (lines (joinLines (ls ++ [[], []]))).take ls.length = ls := by
  have hsplit : ls ++ [[], []] = (ls ++ [[]]) ++ [[]] := by simp
  have hfree : ∀ line ∈ ls ++ [[]], '\n' ∉ line := by
    intro line h
    rcases List.mem_append.mp h with h | h
    · exact hls line h
    · simp [List.mem_singleton.mp h]
  rw [hsplit, lines_joinLines_blank hfree]
  split
  · rename_i h
    have hnil : ls = [] := by simpa using h
    simp [hnil]
  · simp

end PipeShell.Text
