import PipeShell.Proofs.Token.Cuts

/-!
# The pieces of a line

Cutting a line at its pipe characters loses nothing and goes with the quoting of its tokens: both
scans see the same quote open at every character. So the content characters of the pieces are those
between the bare pipe characters of the line, and pieces without such characters can be put together
again.
-/

namespace PipeShell.Token

variable {opened : Option Char} {t : Text} {ss : List Text}

/-- A pipe character outside of quotes, as a content character. -/
def barePipe : Char × Bool :=
  ('|', false)

/-! ## The quote that is open at a character -/

/-- The quote that is open for the cuts is the one that is open for the content characters. -/
theorem scanFrom_append (opened : Option Char) (t u : Text) :
    scanFrom opened (t ++ u) = scanFrom opened t ++ scanFrom (openBehind opened t) u := by
  induction t generalizing opened with
  | nil => rfl
  | cons c t ih =>
      have hbehind : openBehind opened (c :: t) = openBehind (nextQuote opened c) t := rfl
      rw [hbehind, List.cons_append]
      cases opened with
      | some q =>
          by_cases hclose : c = q
          · simp [scanFrom, nextQuote, hclose, ih]
          · simp [scanFrom, nextQuote, hclose, ih]
      | none =>
          by_cases hquote : isQuote c = true
          · simp [scanFrom, nextQuote, hquote, ih]
          · simp [scanFrom, nextQuote, hquote, ih]

theorem scanFrom_cons (opened : Option Char) (c : Char) (t : Text) :
    scanFrom opened (c :: t) = scanFrom opened [c] ++ scanFrom (nextQuote opened c) t :=
  scanFrom_append opened [c] t

/-- A single character is a bare pipe character exactly where the line is cut. -/
theorem barePipe_mem_scanFrom {c : Char} :
    barePipe ∈ scanFrom opened [c] ↔ opened = none ∧ c = '|' := by
  cases opened with
  | some q => by_cases hclose : c = q <;> simp [scanFrom, barePipe, hclose]
  | none =>
      by_cases hquote : isQuote c = true
      · have hne : c ≠ '|' := by
          rintro rfl
          cases hquote
        simp [scanFrom, hquote, hne]
      · simp [scanFrom, barePipe, hquote, eq_comm]

/-! ## Content characters of the pieces -/

/-- The content characters of each piece, when `opened` is open before the first one. -/
def contentsFrom (opened : Option Char) : List Text → List (List (Char × Bool))
  | [] => []
  | s :: rest => scanFrom opened s :: rest.map scan

theorem contentsFrom_none (pieces : List Text) : contentsFrom none pieces = pieces.map scan := by
  cases pieces <;> rfl

theorem contentsFrom_inFront (opened : Option Char) (c : Char) {pieces : List Text}
    (h : pieces ≠ []) :
    contentsFrom opened (inFront [c] pieces)
      = (contentsFrom (nextQuote opened c) pieces).modifyHead (scanFrom opened [c] ++ ·) := by
  obtain ⟨s, rest, rfl⟩ := List.exists_cons_of_ne_nil h
  simp [contentsFrom, inFront, scanFrom_cons opened c s]

theorem splitOn_append_of_not_mem {x : Char × Bool} {xs : List (Char × Bool)} (h : x ∉ xs)
    (ys : List (Char × Bool)) : (xs ++ ys).splitOn x = (ys.splitOn x).modifyHead (xs ++ ·) := by
  induction xs with
  | nil =>
      obtain ⟨first, rest, hsplit⟩ := List.exists_cons_of_ne_nil (List.splitOn_ne_nil x ys)
      simp [hsplit]
  | cons y xs ih =>
      obtain ⟨hy, hxs⟩ : x ≠ y ∧ x ∉ xs := by simpa using h
      obtain ⟨first, rest, hsplit⟩ := List.exists_cons_of_ne_nil (List.splitOn_ne_nil x ys)
      rw [List.cons_append, List.splitOn_cons_eq_if_modifyHead, if_neg (by simpa using Ne.symm hy),
        ih hxs, hsplit]
      rfl

/-- Between its bare pipe characters a line has the content characters of its pieces. -/
theorem splitOn_scanFrom (opened : Option Char) (t : Text) :
    (scanFrom opened t).splitOn barePipe = contentsFrom opened (segmentsFrom opened t) := by
  -- Both sides carry the open quote along, and are cut where it is `none` at a pipe character.
  induction t generalizing opened with
  | nil => cases opened <;> rfl
  | cons c t ih =>
      by_cases hcut : opened = none ∧ c = '|'
      · obtain ⟨rfl, rfl⟩ := hcut
        have hscan : scanFrom none ('|' :: t) = barePipe :: scanFrom none t := rfl
        rw [hscan, List.splitOn_cons_eq_if_modifyHead, if_pos (by simp), ih, segmentsFrom,
          if_pos ⟨rfl, rfl⟩, contentsFrom_none, contentsFrom_none]
        rfl
      · rw [scanFrom_cons, splitOn_append_of_not_mem (mt barePipe_mem_scanFrom.mp hcut), ih,
          segmentsFrom_cons hcut, contentsFrom_inFront _ _ (segmentsFrom_ne_nil _ _)]

/-! ## Putting pieces together -/

theorem join_inFront (c : Char) {pieces : List Text} (h : pieces ≠ []) :
    Text.join ['|'] (inFront [c] pieces) = c :: Text.join ['|'] pieces := by
  obtain ⟨s, rest, rfl⟩ := List.exists_cons_of_ne_nil h
  cases rest <;> rfl

theorem join_segmentsFrom (opened : Option Char) (t : Text) :
    Text.join ['|'] (segmentsFrom opened t) = t := by
  induction t generalizing opened with
  | nil => rfl
  | cons c t ih =>
      by_cases hcut : opened = none ∧ c = '|'
      · rw [segmentsFrom, if_pos hcut, Text.join_cons _ _ (segmentsFrom_ne_nil _ _), ih, hcut.2]
        rfl
      · rw [segmentsFrom_cons hcut, join_inFront c (segmentsFrom_ne_nil _ _), ih]

/-- Every piece but the last one closes its quotes, when `opened` is open before the first one. -/
def ClosedFrom : Option Char → List Text → Prop
  | opened, s :: u :: rest => openBehind opened s = none ∧ ClosedFrom none (u :: rest)
  | _, _ => True

theorem closedFrom_none : ClosedFrom none ss ↔ ∀ s ∈ ss.dropLast, Closed s := by
  induction ss with
  | nil => simp [ClosedFrom]
  | cons s ss ih =>
      cases ss with
      | nil => simp [ClosedFrom]
      | cons u rest => rw [ClosedFrom, ih, List.dropLast_cons_cons, List.forall_mem_cons, Closed]

/-- A line is only cut where no quote is open. -/
theorem closedFrom_segmentsFrom (opened : Option Char) (t : Text) :
    ClosedFrom opened (segmentsFrom opened t) := by
  induction t generalizing opened with
  | nil => trivial
  | cons c t ih =>
      by_cases hcut : opened = none ∧ c = '|'
      · obtain ⟨s, rest, hrest⟩ := List.exists_cons_of_ne_nil (segmentsFrom_ne_nil none t)
        rw [segmentsFrom, if_pos hcut, hrest, ClosedFrom, ← hrest]
        exact ⟨hcut.1, ih none⟩
      · have hbehind := ih (nextQuote opened c)
        rw [segmentsFrom_cons hcut]
        generalize segmentsFrom (nextQuote opened c) t = pieces at hbehind
        cases pieces with
        | nil => trivial
        | cons s rest =>
            cases rest with
            | nil => trivial
            | cons u rest => exact hbehind

theorem segments_of_not_mem (h : barePipe ∉ scan t) : segments t = [t] := by
  have hsplit : [scan t] = (segments t).map scan := by
    rw [← contentsFrom_none, segments, ← splitOn_scanFrom, ← scan, List.splitOn_eq_singleton h]
  obtain ⟨s, hs, -⟩ := List.map_eq_singleton_iff.mp hsplit.symm
  have hjoin := join_segmentsFrom none t
  rw [← segments, hs, Text.join_singleton] at hjoin
  rw [hs, hjoin]

theorem segments_join (hne : ss ≠ []) (hbare : ∀ s ∈ ss, barePipe ∉ scan s)
    (hclosed : ClosedFrom none ss) : segments (Text.join ['|'] ss) = ss := by
  induction ss with
  | nil => exact absurd rfl hne
  | cons s ss ih =>
      obtain ⟨hs, hrest⟩ := List.forall_mem_cons.mp hbare
      cases ss with
      | nil => exact segments_of_not_mem hs
      | cons u rest =>
          obtain ⟨hopen, hclosed⟩ := hclosed
          rw [Text.join_cons _ _ (by simp), List.append_assoc, List.singleton_append,
            segments_append_pipe hopen, segments_of_not_mem hs, ih (by simp) hrest hclosed,
            List.singleton_append]

/-- The pieces of a line, with pipe characters between them, are the line. Their content characters
are what stands between the bare pipe characters of the line, and all but the last piece close their
quotes. Texts for which this holds are the pieces of the line that they make up. -/
theorem segments_inverse_join (line : Text) :
    Text.join ['|'] (segments line) = line
      ∧ (scan line).splitOn barePipe = (segments line).map scan
      ∧ (∀ s ∈ (segments line).dropLast, Closed s)
      ∧ ∀ ss, ss ≠ [] → (∀ s ∈ ss, barePipe ∉ scan s) → (∀ s ∈ ss.dropLast, Closed s) →
          segments (Text.join ['|'] ss) = ss := by
  refine ⟨join_segmentsFrom none line, ?_, ?_, fun ss hne hbare hclosed => ?_⟩
  · rw [scan, splitOn_scanFrom, contentsFrom_none, segments]
  · exact closedFrom_none.mp (closedFrom_segmentsFrom none line)
  · exact segments_join hne hbare (closedFrom_none.mpr hclosed)

/-- Quotes of the other kind and pipe characters between quotes stay, and the last quote is open. -/
theorem segments_inverse_join_nested :
    segments "a'|\"'||\"b'|" = (["a'|\"'", "", "\"b'|"] : List Text) :=
  (segments_inverse_join []).2.2.2 ["a'|\"'", "", "\"b'|"] (by decide) (by decide) (by decide)

end PipeShell.Token
