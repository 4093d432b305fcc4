import PipeShell.Proofs.Text.Pieces
import PipeShell.Token

/-!
# Quoting

Texts whose quotes are closed. Both scans of a line pass over such a text as a whole: no pipe
character in it cuts the line, and it contributes its content characters.
-/

namespace PipeShell.Token

/-- A text with closed quotes and no pipe character outside of them, and the content characters that
it writes. -/
inductive Writes : Text → List (Char × Bool) → Prop
  | nil : Writes [] []
  | plain {c t xs} : isQuote c = false → c ≠ '|' → Writes t xs → Writes (c :: t) ((c, false) :: xs)
  | span {q content t xs} : isQuote q = true → q ∉ content → Writes t xs →
      Writes (q :: (content ++ q :: t)) (content.map (·, true) ++ xs)

variable {t u : Text} {xs ys : List (Char × Bool)}

theorem Writes.append (h : Writes t xs) (h' : Writes u ys) : Writes (t ++ u) (xs ++ ys) := by
  induction h with
  | nil => exact h'
  | plain hc hp _ ih => exact .plain hc hp ih
  | span hq hcontent _ ih =>
      rw [List.cons_append, List.append_assoc, List.cons_append, List.append_assoc]
      exact .span hq hcontent ih

theorem writes_plain (h : ∀ c ∈ t, isQuote c = false ∧ c ≠ '|') :
    Writes t (t.map (·, false)) := by
  induction t with
  | nil => exact .nil
  | cons c t ih =>
      obtain ⟨hc, hp⟩ := h c (by simp)
      exact .plain hc hp (ih fun d hd => h d (by simp [hd]))

/-! ## Scanning -/

theorem scanFrom_span {q : Char} {content : Text} (h : q ∉ content) (rest : Text) :
    scanFrom (some q) (content ++ q :: rest) = content.map (·, true) ++ scanFrom none rest := by
  induction content with
  | nil => simp [scanFrom]
  | cons c content ih =>
      obtain ⟨hc, hcontent⟩ : q ≠ c ∧ q ∉ content := by simpa using h
      rw [List.cons_append, scanFrom, if_neg (Ne.symm hc), ih hcontent]
      rfl

theorem Writes.scanFrom_append (h : Writes t xs) (rest : Text) :
    scanFrom none (t ++ rest) = xs ++ scanFrom none rest := by
  induction h with
  | nil => rfl
  | plain hc _ _ ih => simp [scanFrom, hc, ih]
  | span hq hcontent _ ih =>
      simp [scanFrom, hq, scanFrom_span hcontent, ih]

theorem Writes.scan_eq (h : Writes t xs) : scan t = xs := by
  simpa [scan, scanFrom] using h.scanFrom_append []

/-! ## Cutting at pipe characters -/

/-- The pieces with a text in front of the first one. -/
def inFront (t : Text) (pieces : List Text) : List Text :=
  match pieces with
  | [] => [t]
  | s :: rest => (t ++ s) :: rest

theorem segmentsFrom_cons {opened : Option Char} {c : Char} (h : ¬(opened = none ∧ c = '|'))
    (rest : Text) :
    segmentsFrom opened (c :: rest) = inFront [c] (segmentsFrom (nextQuote opened c) rest) := by
  rw [segmentsFrom, if_neg h]
  cases segmentsFrom (nextQuote opened c) rest <;> rfl

theorem segmentsFrom_ne_nil (opened : Option Char) (t : Text) : segmentsFrom opened t ≠ [] := by
  cases t with
  | nil => simp [segmentsFrom]
  | cons c t =>
      rw [segmentsFrom]
      split
      · simp
      · split <;> simp

theorem inFront_inFront (t u : Text) (pieces : List Text) :
    inFront t (inFront u pieces) = inFront (t ++ u) pieces := by
  cases pieces <;> simp [inFront]

theorem segmentsFrom_span {q : Char} {content : Text} (h : q ∉ content) (rest : Text) :
    segmentsFrom (some q) (content ++ q :: rest)
      = inFront (content ++ [q]) (segmentsFrom none rest) := by
  induction content with
  | nil => simp [segmentsFrom_cons, nextQuote]
  | cons c content ih =>
      obtain ⟨hc, hcontent⟩ : q ≠ c ∧ q ∉ content := by simpa using h
      rw [List.cons_append, segmentsFrom_cons (by simp), nextQuote, if_neg (Ne.symm hc),
        ih hcontent, inFront_inFront]
      rfl

/-- A text with closed quotes stays in one piece. -/
theorem Writes.segmentsFrom_append (h : Writes t xs) (rest : Text) :
    segmentsFrom none (t ++ rest) = inFront t (segmentsFrom none rest) := by
  induction h with
  | nil =>
      cases hs : segmentsFrom none rest with
      | nil => exact absurd hs (segmentsFrom_ne_nil none rest)
      | cons s pieces => simp [inFront, hs]
  | plain hc hp _ ih =>
      rw [List.cons_append, segmentsFrom_cons (by simp [hp]), nextQuote, if_neg (by simp [hc]), ih,
        inFront_inFront]
      rfl
  | span hq hcontent _ ih =>
      have hpipe : ∀ q, isQuote q = true → q ≠ '|' := by
        rintro q hq rfl
        simp [isQuote] at hq
      rw [List.cons_append, List.append_assoc, List.cons_append,
        segmentsFrom_cons (by simp [hpipe _ hq]), nextQuote, if_pos hq, segmentsFrom_span hcontent,
        ih, inFront_inFront, inFront_inFront]
      simp

/-! ## Tokens -/

/-- The content characters belong to one group: none of them separates tokens. -/
def Solid (xs : List (Char × Bool)) : Prop :=
  ∀ x ∈ xs, x.2 = true ∨ isSeparator x.1 = false

theorem solid_quoted (content : Text) : Solid (content.map (·, true)) := by
  intro x hx
  obtain ⟨c, _, rfl⟩ := List.mem_map.mp hx
  exact Or.inl rfl

theorem groups_cons_solid {c : Char} {quoted : Bool} (h : quoted = true ∨ isSeparator c = false)
    (rest : List (Char × Bool)) : groups ((c, quoted) :: rest) = inFront [c] (groups rest) := by
  have hc : (!quoted && isSeparator c) = false := by
    rcases h with h | h <;> simp [h]
  rw [groups, if_neg (by simp [hc])]
  cases groups rest <;> rfl

theorem groups_ne_nil (xs : List (Char × Bool)) : groups xs ≠ [] := by
  cases xs with
  | nil => simp [groups]
  | cons x xs =>
      rw [groups]
      split
      · simp
      · split <;> simp

theorem groups_append_solid (h : Solid xs) (rest : List (Char × Bool)) :
    groups (xs ++ rest) = inFront (xs.map Prod.fst) (groups rest) := by
  induction xs with
  | nil =>
      cases hg : groups rest with
      | nil => exact absurd hg (groups_ne_nil rest)
      | cons g gs => simp [inFront, hg]
  | cons x xs ih =>
      rw [List.cons_append, groups_cons_solid (h x (by simp)), ih fun y hy => h y (by simp [hy]),
        inFront_inFront]
      rfl

/-- Solid groups with blanks between them are the groups. -/
theorem groups_intercalate {parts : List (List (Char × Bool))} (h : ∀ xs ∈ parts, Solid xs)
    (hne : parts ≠ []) :
    groups ([(' ', false)].intercalate parts) = parts.map (·.map Prod.fst) := by
  induction parts with
  | nil => exact absurd rfl hne
  | cons xs parts ih =>
      have hxs := h xs (by simp)
      cases parts with
      | nil =>
          have hg := groups_append_solid hxs []
          rw [List.append_nil] at hg
          simp [hg, groups, inFront]
      | cons ys parts =>
          have ih := ih (fun s hs => h s (by simp [hs])) (by simp)
          rw [List.intercalate_cons_cons, List.append_assoc, groups_append_solid hxs]
          simp [groups, isSeparator, ih, inFront]

/-- A text that is written in a line, with the content characters that it writes there. -/
structure Field where
  shown : Text
  content : List (Char × Bool)
  writes : Writes shown content
  solid : Solid content

theorem writes_join (fields : List Field) :
    Writes (Text.join [' '] (fields.map (·.shown)))
      ([(' ', false)].intercalate (fields.map (·.content))) := by
  induction fields with
  | nil => exact .nil
  | cons f fields ih =>
      cases fields with
      | nil => simpa using f.writes
      | cons g fields =>
          have hblank : Writes [' '] [(' ', false)] := .plain rfl (by decide) .nil
          simpa [Text.join, List.intercalate_cons_cons] using
            (f.writes.append hblank).append ih

/-- Fields with blanks between them are read as their contents. -/
theorem tokenize_join (fields : List Field) (h : ∀ f ∈ fields, f.content ≠ []) :
    tokenize (Text.join [' '] (fields.map (·.shown)))
      = fields.map (·.content.map Prod.fst) := by
  rw [tokenize, (writes_join fields).scan_eq]
  cases fields with
  | nil => rfl
  | cons f fields =>
      rw [groups_intercalate _ (by simp)]
      · rw [List.filter_eq_self.mpr]
        · simp
        · intro g hg
          obtain ⟨xs, hxs, rfl⟩ := List.mem_map.mp hg
          obtain ⟨f', hf', rfl⟩ := List.mem_map.mp hxs
          simpa using h f' hf'
      · intro xs hxs
        obtain ⟨f', _, rfl⟩ := List.mem_map.mp hxs
        exact f'.solid

end PipeShell.Token
