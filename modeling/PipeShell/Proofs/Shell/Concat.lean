import Mathlib.Tactic.ByContra
import PipeShell.Proofs.Text.Lines
import PipeShell.Shell.Exec
import PipeShell.Store.Setup

/-!
# The lines of several files

Files that are shown together are put one after another, with a line feed behind each that lacks one.
An empty file has no line that could lack it, and gets one all the same.
-/

namespace PipeShell

/-! ## Rows -/

namespace Text

variable {t u : Text}

/-- The text with a line feed at its end, which is added if there is none. -/
def ended (t : Text) : Text :=
  t ++ if t.getLast? = some '\n' then [] else ['\n']

/-- The lines of a text, where a line feed alone ends a blank line. -/
def rows (t : Text) : List Text :=
  if t = [] then [] else pieces (· == '\n') (dropFinalNewline t)

theorem ended_eq (t : Text) : ended t = dropFinalNewline t ++ ['\n'] := by
  by_cases h : t.getLast? = some '\n'
  · obtain ⟨front, rfl⟩ := List.getLast?_eq_some_iff.mp h
    simp [ended, dropFinalNewline_concat]
  · rw [ended, if_neg h, dropFinalNewline_of_open h]

theorem dropFinalNewline_append (t : Text) (hu : u ≠ []) :
    dropFinalNewline (t ++ u) = t ++ dropFinalNewline u := by
  have hlast : (t ++ u).getLast? = u.getLast? := by
    rw [List.getLast?_append, Option.or_of_isSome (by simpa using hu)]
  rw [dropFinalNewline, dropFinalNewline, hlast, List.dropLast_append_of_ne_nil hu]
  split <;> rfl

theorem dropFinalNewline_eq_nil_iff : dropFinalNewline t = [] ↔ t = [] ∨ t = ['\n'] := by
  by_cases h : t.getLast? = some '\n'
  · obtain ⟨front, rfl⟩ := List.getLast?_eq_some_iff.mp h
    simp [dropFinalNewline_concat]
  · rw [dropFinalNewline_of_open h]
    refine ⟨Or.inl, fun hor => hor.resolve_right ?_⟩
    rintro rfl
    exact h rfl

theorem rows_ended (t : Text) : rows (ended t) = pieces (· == '\n') (dropFinalNewline t) := by
  rw [ended_eq, rows, if_neg (by simp), dropFinalNewline_concat]

theorem rows_ended_of_ne_nil (h : t ≠ []) : rows (ended t) = rows t := by
  rw [rows_ended, rows, if_neg h]

theorem rows_ended_append (t u : Text) : rows (ended t ++ u) = rows (ended t) ++ rows u := by
  by_cases hu : u = []
  · simp [hu, rows]
  · have hcut : dropFinalNewline (ended t ++ u)
        = dropFinalNewline t ++ '\n' :: dropFinalNewline u := by
      rw [dropFinalNewline_append _ hu, ended_eq, List.append_assoc]
      rfl
    rw [rows_ended, rows, if_neg (by simp [hu]), hcut, pieces_append_cons _ _ (by simp), rows,
      if_neg hu]

theorem lines_eq_rows (h : t ≠ ['\n']) : lines t = rows t := by
  by_cases hnil : t = []
  · subst hnil
    rfl
  · rw [lines_eq, rows, if_neg hnil, if_neg fun hdrop =>
      (dropFinalNewline_eq_nil_iff.mp hdrop).elim hnil h]

/-- Only an empty text and a line feed alone have fewer lines than rows when they are ended. -/
theorem length_lines_lt (h : t = [] ∨ t = ['\n']) :
    (lines t).length < (rows (ended t)).length := by
  rcases h with rfl | rfl <;> decide

theorem length_lines_le (t : Text) : (lines t).length ≤ (rows (ended t)).length := by
  by_cases h : t = [] ∨ t = ['\n']
  · exact Nat.le_of_lt (length_lines_lt h)
  · obtain ⟨hnil, hfeed⟩ := not_or.mp h
    exact Nat.le_of_eq (by rw [lines_eq_rows hfeed, rows_ended_of_ne_nil hnil])

end Text

/-! ## Texts one after another -/

namespace Command

open Text (rows ended lines)

variable {ts : List Text} {t u : Text}

theorem concat_cons (t : Text) (hne : ts ≠ []) : concat (t :: ts) = ended t ++ concat ts := by
  cases ts with
  | nil => exact absurd rfl hne
  | cons u us => rfl

/-- Every text but the last has a line, and none of them is a line feed alone. -/
def Lined (ts : List Text) : Prop :=
  (∀ t ∈ ts.dropLast, t ≠ [] ∧ t ≠ ['\n']) ∧ ts.getLast? ≠ some ['\n']

theorem lined_cons (hne : ts ≠ []) : Lined (t :: ts) ↔ (t ≠ [] ∧ t ≠ ['\n']) ∧ Lined ts := by
  obtain ⟨u, us, rfl⟩ := List.exists_cons_of_ne_nil hne
  rw [Lined, Lined, List.dropLast_cons_cons, List.getLast?_cons_cons, List.forall_mem_cons,
    and_assoc]

theorem rows_concat_of_lined (h : Lined ts) : rows (concat ts) = ts.flatMap lines := by
  induction ts with
  | nil => rfl
  | cons t ts ih =>
      by_cases hts : ts = []
      · subst hts
        have ht : t ≠ ['\n'] := by simpa [Lined] using h.2
        simp [concat, Text.lines_eq_rows ht]
      · obtain ⟨⟨hnil, hfeed⟩, hrest⟩ := (lined_cons hts).mp h
        rw [concat_cons t hts, Text.rows_ended_append, Text.rows_ended_of_ne_nil hnil, ih hrest,
          List.flatMap_cons, Text.lines_eq_rows hfeed]

/-- Where a text has no line or is a line feed alone, the texts have fewer lines than rows. -/
theorem length_flatMap_lines_le (ts : List Text) :
    (ts.flatMap lines).length ≤ (rows (concat ts)).length
      ∧ (¬Lined ts → (ts.flatMap lines).length < (rows (concat ts)).length) := by
  induction ts with
  | nil => exact ⟨Nat.le_refl _, fun h => absurd ⟨by simp, by simp⟩ h⟩
  | cons t ts ih =>
      by_cases hts : ts = []
      · subst hts
        by_cases hfeed : t = ['\n']
        · subst hfeed
          exact ⟨by decide, fun _ => by decide⟩
        · have hlined : Lined [t] := ⟨by simp, by simpa using hfeed⟩
          exact ⟨by simp [concat, Text.lines_eq_rows hfeed], fun h => absurd hlined h⟩
      · -- A shortfall anywhere stays, because no other text makes up for it.
        obtain ⟨hle, hlt⟩ := ih
        have ht := Text.length_lines_le t
        rw [concat_cons t hts, Text.rows_ended_append, List.flatMap_cons, List.length_append,
          List.length_append, lined_cons hts]
        refine ⟨Nat.add_le_add ht hle, fun h => ?_⟩
        by_cases hrest : Lined ts
        · have hbad : t = [] ∨ t = ['\n'] := by
            by_contra hgood
            exact h ⟨not_or.mp hgood, hrest⟩
          exact Nat.add_lt_add_of_lt_of_le (Text.length_lines_lt hbad) hle
        · exact Nat.add_lt_add_of_le_of_lt ht (hlt hrest)

/-- Texts that together are a line feed alone have no lines. -/
theorem flatMap_lines_of_concat_eq (h : concat ts = ['\n']) : ts.flatMap lines = [] := by
  match ts with
  | [] => rfl
  | [t] =>
      obtain rfl : t = ['\n'] := h
      rfl
  | t :: u :: us =>
      rw [concat_cons t (by simp), Text.ended_eq, List.append_assoc] at h
      obtain ⟨ht, hrest⟩ : Text.dropFinalNewline t = [] ∧ concat (u :: us) = [] := by
        simpa [List.append_eq_singleton_iff] using h
      obtain ⟨rfl, rfl⟩ : us = [] ∧ u = [] := by
        by_cases hus : us = []
        · subst hus
          exact ⟨rfl, hrest⟩
        · rw [concat_cons u hus, Text.ended_eq] at hrest
          simp at hrest
      have hlines : lines t = [] := by
        rcases Text.dropFinalNewline_eq_nil_iff.mp ht with rfl | rfl <;> rfl
      rw [List.flatMap_cons, hlines]
      rfl

/-- Texts one after another have the lines of each in order exactly when every text but the last
has a line, and none is a line feed alone; or when all of them together are a line feed alone. -/
theorem lines_concat_iff (ts : List Text) :
    lines (concat ts) = ts.flatMap lines ↔ Lined ts ∨ concat ts = ['\n'] := by
  by_cases hfeed : concat ts = ['\n']
  · simp only [hfeed, or_true, iff_true]
    rw [flatMap_lines_of_concat_eq hfeed]
    rfl
  · rw [Text.lines_eq_rows hfeed, or_iff_left hfeed]
    refine ⟨fun h => ?_, rows_concat_of_lined⟩
    by_contra hlined
    have hlt := (length_flatMap_lines_le ts).2 hlined
    rw [h] at hlt
    exact Nat.lt_irrefl _ hlt

/-- The line feed behind an empty file shows as a line of its own: `uniq` counts two lines where the
files have one. -/
theorem empty_file_line_invented :
    [[], ['a', '\n']].flatMap lines = [['a']]
      ∧ lines (concat [[], ['a', '\n']]) = [[], ['a']]
      ∧ (Shell.execute
            { stages := [⟨.concatenate, [(.paths, .texts [['e'], ['a']])]⟩,
                ⟨.deduplicate, [(.count, .flag true)]⟩]
              isPipeline := true }
            ⟨{}, .ofMemory
              { tree := .file ['a'] ['a', '\n'] (.file ['e'] [] .empty), quota := 10 } {} {}⟩).1
          = .ok "      1 \n      1 a" :=
  ⟨by decide, by decide, rfl⟩

end Command

end PipeShell
