import PipeShell.Proofs.Text.Trimmed
import PipeShell.Proofs.Text.Within

/-!
# The lines of scripts

A script that is cut at the end of a line has the lines of its two parts. What ends its lines, and
how many blank ones stand between them, does not show.
-/

namespace PipeShell.Text

/-- What ends a line of a script. -/
inductive LineEnd
  | lineFeed
  | carriageReturn
  | both

def LineEnd.text : LineEnd → Text
  | lineFeed => ['\n']
  | carriageReturn => ['\r']
  | both => ['\r', '\n']

/-- The script of rows, each with what ends it, and of a last one that nothing ends. -/
def ofRows (rows : List (Text × LineEnd)) (last : Text) : Text :=
  rows.flatMap (fun row => row.1 ++ row.2.text) ++ last

/-- The rows of a script that are not blank. -/
def filledRows (rows : List (Text × LineEnd)) (last : Text) : List Text :=
  (rows.map Prod.fst ++ [last]).filter (strip · ≠ [])

variable {t : Text}

/-! ## Blank texts -/

theorem strip_eq_nil_iff : strip t = [] ↔ ∀ c ∈ t, isBlank c = true := by
  constructor
  · intro h c hc
    by_contra hopen
    have hkept : c ∈ strip t := mem_strip (by simpa using hopen) hc
    simp [h] at hkept
  · intro h
    have hpadded := strip_blank_append h []
    rwa [List.append_nil] at hpadded

theorem isBlank_of_isLineBoundary {c : Char} (h : isLineBoundary c = true) : isBlank c = true := by
  have hblank : ['\n', '\x0b', '\x0c', '\r', '\x1c', '\x1d', '\x1e', '\x85', '\u2028',
      '\u2029'].all isBlank = true := by
    decide
  exact List.all_eq_true.mp hblank c (by simpa [isLineBoundary] using h)

/-- A character at which a text is not cut stands in a piece. -/
theorem exists_mem_pieces {p : Char → Bool} {c : Char} (hc : p c = false) (h : c ∈ t) :
    ∃ piece ∈ pieces p t, c ∈ piece := by
  induction t with
  | nil => cases h
  | cons d t ih =>
      by_cases hd : p d = true
      · have hne : c ≠ d := by
          rintro rfl
          simp [hd] at hc
        obtain ⟨piece, hpiece, hmem⟩ := ih ((List.mem_cons.mp h).resolve_left hne)
        exact ⟨piece, by simp [pieces, hd, hpiece], hmem⟩
      · obtain ⟨first, rest, hrest⟩ : ∃ first rest, pieces p t = first :: rest := by
          rw [pieces_eq_splitOnP]
          exact List.exists_cons_of_ne_nil (List.splitOnP_ne_nil p t)
        rw [pieces, if_neg hd, hrest]
        rcases List.mem_cons.mp h with rfl | h
        · exact ⟨c :: first, by simp, by simp⟩
        · obtain ⟨piece, hpiece, hmem⟩ := ih h
          rw [hrest] at hpiece
          rcases List.mem_cons.mp hpiece with rfl | hpiece
          · exact ⟨d :: piece, by simp, by simp [hmem]⟩
          · exact ⟨piece, by simp [hpiece], hmem⟩

/-- Only a blank script has no lines. -/
theorem scriptLines_eq_nil_iff : scriptLines t = [] ↔ strip t = [] := by
  have hlines : scriptLines t = [] ↔ ∀ piece ∈ pieces isLineBoundary t, strip piece = [] := by
    simp [scriptLines]
  rw [hlines, strip_eq_nil_iff]
  constructor
  · intro h c hc
    by_cases hboundary : isLineBoundary c = true
    · exact isBlank_of_isLineBoundary hboundary
    · obtain ⟨piece, hpiece, hmem⟩ := exists_mem_pieces (by simpa using hboundary) hc
      exact strip_eq_nil_iff.mp (h piece hpiece) c hmem
  · intro h piece hpiece
    exact strip_eq_nil_iff.mpr fun c hc => h c (subset_of_mem_pieces hpiece hc)

/-! ## Cutting -/

theorem scriptLines_append_cons (t u : Text) {c : Char} (hc : isLineBoundary c = true) :
    scriptLines (t ++ c :: u) = scriptLines t ++ scriptLines u := by
  simp only [scriptLines, pieces_append_cons t u hc, List.map_append, List.filter_append]

theorem scriptLines_append_end (t u : Text) (e : LineEnd) :
    scriptLines (t ++ e.text ++ u) = scriptLines t ++ scriptLines u := by
  rw [List.append_assoc]
  cases e with
  | lineFeed => exact scriptLines_append_cons t u rfl
  | carriageReturn => exact scriptLines_append_cons t u rfl
  | both =>
      -- The line feed ends an empty line of its own.
      have hfeed : scriptLines ('\n' :: u) = scriptLines u := scriptLines_append_cons [] u rfl
      exact (scriptLines_append_cons t ('\n' :: u) rfl).trans (by rw [hfeed])

theorem scriptLines_ofRows (rows : List (Text × LineEnd)) (last : Text) :
    scriptLines (ofRows rows last) = (filledRows rows last).flatMap scriptLines := by
  have hfilled (ts : List Text) :
      (ts.filter (strip · ≠ [])).flatMap scriptLines = ts.flatMap scriptLines := by
    induction ts with
    | nil => rfl
    | cons t ts ih =>
        by_cases ht : strip t = []
        · simp [ht, scriptLines_eq_nil_iff.mpr ht, ← ih]
        · simp [ht, ← ih]
  rw [filledRows, hfilled]
  induction rows with
  | nil => simp [ofRows]
  | cons row rows ih =>
      obtain ⟨t, e⟩ := row
      have hcons : ofRows ((t, e) :: rows) last = t ++ e.text ++ ofRows rows last := by
        simp [ofRows]
      rw [hcons, scriptLines_append_end, ih]
      rfl

end PipeShell.Text
