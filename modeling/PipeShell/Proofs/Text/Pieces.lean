import PipeShell.Text.Basic

/-!
# Cutting and joining

Cutting a text at a character and joining the pieces undo each other, as long as no piece holds the
character.
-/

namespace PipeShell.Text

theorem pieces_eq_splitOnP (p : Char → Bool) (t : Text) : pieces p t = t.splitOnP p := by
  induction t with
  | nil => rfl
  | cons c t ih =>
      obtain ⟨first, rest, h⟩ := List.exists_cons_of_ne_nil (List.splitOnP_ne_nil p t)
      simp [pieces, ih, h, List.splitOnP_cons_eq_if_modifyHead]

theorem pieces_beq (c : Char) (t : Text) : pieces (· == c) t = t.splitOn c := by
  rw [pieces_eq_splitOnP, List.splitOn_eq_splitOnP]

theorem join_eq_intercalate (sep : Text) (ts : List Text) : join sep ts = sep.intercalate ts := by
  induction ts with
  | nil => rfl
  | cons t ts ih =>
      cases ts with
      | nil => simp [join]
      | cons u us => rw [join, ih, List.intercalate_cons_cons]; simp

@[simp] theorem join_singleton (sep t : Text) : join sep [t] = t := rfl

theorem join_cons (sep t : Text) {ts : List Text} (h : ts ≠ []) :
    join sep (t :: ts) = t ++ sep ++ join sep ts := by
  cases ts with
  | nil => exact absurd rfl h
  | cons u us => rfl

theorem join_nil_sep (ts : List Text) : join [] ts = ts.flatten := by
  induction ts with
  | nil => rfl
  | cons t ts ih =>
      cases ts with
      | nil => simp
      | cons u us => rw [join_cons [] t (by simp), ih]; simp

theorem infix_join (sep : Text) {ts : List Text} {t : Text} (h : t ∈ ts) : t <:+: join sep ts := by
  induction ts with
  | nil => cases h
  | cons u us ih =>
      rcases List.mem_cons.mp h with rfl | h
      · cases us with
        | nil => exact List.infix_rfl
        | cons v vs =>
            rw [join_cons sep t (by simp), List.append_assoc]
            exact (List.prefix_append _ _).isInfix
      · rw [join_cons sep u (List.ne_nil_of_mem h)]
        exact (ih h).trans (List.suffix_append _ _).isInfix

@[simp] theorem pieces_nil (p : Char → Bool) : pieces p [] = [[]] := rfl

/-- No piece holds a character that the text was cut at. -/
theorem not_cut_of_mem_pieces {p : Char → Bool} {t piece : Text} (h : piece ∈ pieces p t) :
    ∀ c ∈ piece, p c = false := by
  induction t generalizing piece with
  | nil =>
      obtain rfl : piece = [] := by simpa [pieces] using h
      simp
  | cons c t ih =>
      simp only [pieces] at h
      split at h
      · rcases List.mem_cons.mp h with rfl | h
        · simp
        · exact ih h
      · rename_i hc
        have hc : p c = false := by simpa using hc
        split at h
        · obtain rfl := List.mem_singleton.mp h
          simpa using hc
        · rename_i first rest hp
          rcases List.mem_cons.mp h with rfl | h
          · have hfirst : ∀ c ∈ first, p c = false := ih (by simp [hp])
            simpa [hc] using hfirst
          · exact ih (by simp [hp, h])

theorem pieces_of_uncut {p : Char → Bool} {t : Text} (h : ∀ c ∈ t, p c = false) :
    pieces p t = [t] := by
  rw [pieces_eq_splitOnP, List.splitOnP_eq_singleton h]

theorem pieces_append_cons {p : Char → Bool} (t u : Text) {c : Char} (hc : p c) :
    pieces p (t ++ c :: u) = pieces p t ++ pieces p u := by
  simp only [pieces_eq_splitOnP, List.splitOnP_append_cons t u hc]

theorem runs_append_cons {p : Char → Bool} (t u : Text) {c : Char} (hc : p c) :
    runs p (t ++ c :: u) = runs p t ++ runs p u := by
  rw [runs, pieces_append_cons t u hc, List.filter_append]
  rfl

theorem runs_append_of_cut {p : Char → Bool} {after : Text} (ha : ∀ c ∈ after, p c) (t : Text) :
    runs p (t ++ after) = runs p t := by
  induction after generalizing t with
  | nil => rw [List.append_nil]
  | cons c after ih =>
      have hrest : runs p after = [] := ih (fun d hd => ha d (by simp [hd])) []
      rw [runs_append_cons t after (ha c (by simp)), hrest, List.append_nil]

theorem runs_cut_append {p : Char → Bool} {before : Text} (hb : ∀ c ∈ before, p c) (t : Text) :
    runs p (before ++ t) = runs p t := by
  induction before with
  | nil => rfl
  | cons c before ih =>
      exact (runs_append_cons [] (before ++ t) (hb c (by simp))).trans
        (ih fun d hd => hb d (by simp [hd]))

theorem pieces_join {c : Char} {ts : List Text} (h : ∀ t ∈ ts, c ∉ t) (hne : ts ≠ []) :
    pieces (· == c) (join [c] ts) = ts := by
  rw [pieces_beq, join_eq_intercalate, List.splitOn_intercalate c h hne]

theorem join_pieces (c : Char) (t : Text) : join [c] (pieces (· == c) t) = t := by
  rw [pieces_beq, join_eq_intercalate, List.intercalate_splitOn]

end PipeShell.Text
