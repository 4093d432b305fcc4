import Mathlib.Data.List.Forall2
import PipeShell.Pipeline.Reader
import PipeShell.Proofs.Pipeline.Words
import PipeShell.Proofs.Store.Action
import PipeShell.Proofs.Text.Trimmed
import PipeShell.Proofs.Token.Quoting

/-!
# Written pipelines

A pipeline is written as a line in which every operand stands in quotes. Whatever the operands hold,
the line is read as the same pipeline.
-/

namespace PipeShell

/-! ## Writing -/

/-- A quoted span of a line. -/
structure Span where
  quote : Char
  content : Text
  isQuote : Token.isQuote quote = true
  closed : quote ∉ content

/-- A span with its quotes. -/
def Span.shown (s : Span) : Text :=
  s.quote :: (s.content ++ [s.quote])

/-- The operand is written as adjacent spans. -/
def WritesOperand (operand shown : Text) : Prop :=
  ∃ spans : List Span, spans.flatMap Span.content = operand ∧ shown = spans.flatMap Span.shown

/-- A stage to be written: a word for its verb, and its operands. -/
structure WordStage where
  word : Text
  verb : Verb
  operands : List Text
  names : Verb.resolve? word = some verb
  blankless : ∀ c ∈ word, Text.isBlank c = false
  filled : ∀ t ∈ operands, t ≠ []

namespace WordStage

/-- The stage is written as its word and its operands with blanks between them. -/
def Writes (w : WordStage) (shown : Text) : Prop :=
  ∃ operands, List.Forall₂ WritesOperand w.operands operands
    ∧ shown = Text.join [' '] (w.word :: operands)

/-- The stage has these arguments. -/
def Reads (w : WordStage) (s : Stage) : Prop :=
  s.verb = w.verb ∧ Args.parse w.verb w.operands = .ok s.args

end WordStage

/-- The stages are written as a line. -/
def WritesLine (ws : List WordStage) (line : Text) : Prop :=
  ∃ texts, List.Forall₂ WordStage.Writes ws texts ∧ line = Text.join " | " texts

theorem exists_of_mem_right {α β : Type} {R : α → β → Prop} {l : List α} {l' : List β}
    (h : List.Forall₂ R l l') {b : β} (hb : b ∈ l') : ∃ a ∈ l, R a b := by
  induction h with
  | nil => cases hb
  | cons hr _ ih =>
      rcases List.mem_cons.mp hb with rfl | hb
      · exact ⟨_, by simp, hr⟩
      · obtain ⟨a, ha, hr⟩ := ih hb
        exact ⟨a, by simp [ha], hr⟩

theorem exists_forall₂ {α β : Type} {R : α → β → Prop} (h : ∀ a, ∃ b, R a b) (l : List α) :
    ∃ l', List.Forall₂ R l l' := by
  induction l with
  | nil => exact ⟨[], .nil⟩
  | cons a l ih =>
      obtain ⟨b, hb⟩ := h a
      obtain ⟨l', hl⟩ := ih
      exact ⟨b :: l', .cons hb hl⟩

/-! ## Operands -/

/-- Every text can be written, each of its characters in a span of its own. -/
theorem exists_writesOperand (t : Text) : ∃ shown, WritesOperand t shown := by
  suffices h : ∃ spans : List Span, spans.flatMap Span.content = t by
    obtain ⟨spans, h⟩ := h
    exact ⟨_, spans, h, rfl⟩
  induction t with
  | nil => exact ⟨[], rfl⟩
  | cons c t ih =>
      obtain ⟨spans, h⟩ := ih
      by_cases hc : c = '"'
      · exact ⟨⟨'\'', [c], rfl, by simp [hc]⟩ :: spans, by simp [h]⟩
      · exact ⟨⟨'"', [c], rfl, by simpa using Ne.symm hc⟩ :: spans, by simp [h]⟩

theorem writes_spans (spans : List Span) :
    Token.Writes (spans.flatMap Span.shown) ((spans.flatMap Span.content).map (·, true)) := by
  induction spans with
  | nil => exact .nil
  | cons s spans ih =>
      have hs : Token.Writes s.shown (s.content.map (·, true) ++ []) :=
        .span s.isQuote s.closed .nil
      simpa using hs.append ih

theorem WritesOperand.field {t shown : Text} (h : WritesOperand t shown) :
    ∃ f : Token.Field, f.shown = shown ∧ f.content = t.map (·, true) := by
  obtain ⟨spans, rfl, rfl⟩ := h
  exact ⟨⟨_, _, writes_spans spans, Token.solid_quoted _⟩, rfl, rfl⟩

theorem fields_of_writes {operands texts : List Text}
    (h : List.Forall₂ WritesOperand operands texts) :
    ∃ fields : List Token.Field, fields.map (·.shown) = texts
      ∧ fields.map (·.content) = operands.map (·.map (·, true)) := by
  induction h with
  | nil => exact ⟨[], rfl, rfl⟩
  | cons ht _ ih =>
      obtain ⟨f, hf, hc⟩ := ht.field
      obtain ⟨fields, hfs, hcs⟩ := ih
      exact ⟨f :: fields, by simp [hf, hfs], by simp [hc, hcs]⟩

theorem Span.trimmed (s : Span) : s.shown ≠ [] ∧ Text.Trimmed s.shown := by
  have hq : Text.isBlank s.quote = false := by
    have hs := s.isQuote
    simp only [Token.isQuote, Bool.or_eq_true, beq_iff_eq] at hs
    rcases hs with hs | hs <;> rw [hs] <;> decide
  refine ⟨by simp [Span.shown], ⟨?_, ?_⟩⟩
  · simp [Span.shown, hq]
  · rw [Span.shown, ← List.cons_append, List.getLast?_concat]
    simpa using hq

theorem WritesOperand.trimmed {t shown : Text} (h : WritesOperand t shown) (ht : t ≠ []) :
    shown ≠ [] ∧ Text.Trimmed shown := by
  obtain ⟨spans, hcontent, rfl⟩ := h
  have hne : spans.map Span.shown ≠ [] := by
    rintro hnil
    simp only [List.map_eq_nil_iff] at hnil
    exact ht (by simp [← hcontent, hnil])
  have hall : ∀ t ∈ spans.map Span.shown, t ≠ [] ∧ Text.Trimmed t := by
    intro t ht
    obtain ⟨s, _, rfl⟩ := List.mem_map.mp ht
    exact s.trimmed
  have hjoin : Text.join [] (spans.map Span.shown) ≠ []
      ∧ Text.Trimmed (Text.join [] (spans.map Span.shown)) := Text.trimmed_join hall hne
  rwa [Text.join_nil_sep, ← List.flatMap_def] at hjoin

/-! ## Stages -/

namespace WordStage

theorem word_ne_nil (w : WordStage) : w.word ≠ [] :=
  Verb.ne_nil_of_resolve w.names

/-- The word of a stage is a field of its own. -/
def field (w : WordStage) : Token.Field where
  shown := w.word
  content := w.word.map (·, false)
  writes := Token.writes_plain (Verb.plain_of_resolve w.names)
  solid := by
    intro x hx
    obtain ⟨c, hc, rfl⟩ := List.mem_map.mp hx
    refine Or.inr ?_
    have hb := w.blankless c hc
    simp only [Token.isSeparator, Bool.or_eq_false_iff, beq_eq_false_iff_ne]
    constructor <;> rintro rfl <;> exact absurd hb (by decide)

variable {w : WordStage} {shown : Text}

theorem Writes.fields (h : w.Writes shown) :
    ∃ fields : List Token.Field, shown = Text.join [' '] (fields.map (·.shown))
      ∧ fields.map (·.content) = w.word.map (·, false) :: w.operands.map (·.map (·, true)) := by
  obtain ⟨texts, htexts, rfl⟩ := h
  obtain ⟨fields, hshown, hcontent⟩ := fields_of_writes htexts
  exact ⟨w.field :: fields, by simp [field, hshown], by simp [field, hcontent]⟩

theorem Writes.tokenize_eq (h : w.Writes shown) :
    Token.tokenize shown = w.word :: w.operands := by
  obtain ⟨fields, rfl, hcontent⟩ := h.fields
  rw [Token.tokenize_join]
  · have hfst := congrArg (List.map (List.map Prod.fst)) hcontent
    simpa [Function.comp_def] using hfst
  · intro f hf hnil
    have hmem : f.content ∈ fields.map (·.content) := List.mem_map.mpr ⟨f, hf, rfl⟩
    rw [hcontent, hnil] at hmem
    rcases List.mem_cons.mp hmem with hword | hmem
    · exact w.word_ne_nil (by simpa using hword.symm)
    · obtain ⟨t, ht, hnil⟩ := List.mem_map.mp hmem
      exact w.filled t ht (by simpa using hnil)

theorem Writes.writes (h : w.Writes shown) : ∃ xs, Token.Writes shown xs := by
  obtain ⟨fields, rfl, _⟩ := h.fields
  exact ⟨_, Token.writes_join fields⟩

theorem Writes.starts (h : w.Writes shown) :
    ∃ rest, shown = w.word ++ rest ∧ ∀ c ∈ rest.head?, c = ' ' := by
  obtain ⟨texts, _, rfl⟩ := h
  cases texts with
  | nil => exact ⟨[], by simp, by simp⟩
  | cons t texts =>
      rw [Text.join_cons [' '] w.word (by simp), List.append_assoc]
      exact ⟨[' '] ++ Text.join [' '] (t :: texts), rfl, by simp⟩

theorem Writes.trimmed (h : w.Writes shown) : shown ≠ [] ∧ Text.Trimmed shown := by
  obtain ⟨texts, htexts, rfl⟩ := h
  refine Text.trimmed_join (fun t ht => ?_) (by simp)
  rcases List.mem_cons.mp ht with rfl | ht
  · exact ⟨w.word_ne_nil, Text.trimmed_of_blankless w.blankless⟩
  · obtain ⟨operand, hmem, hoperand⟩ := exists_of_mem_right htexts ht
    exact hoperand.trimmed (w.filled operand hmem)

theorem Writes.readStage_eq {s : Stage} (h : w.Writes shown) (hs : w.Reads s) :
    Pipeline.readStage? shown = .ok (some s) := by
  obtain ⟨hverb, hargs⟩ := hs
  rw [Pipeline.readStage?, h.trimmed.2.strip_eq, h.tokenize_eq]
  simp only [w.names, hargs, Attempt.ok_bind]
  rw [← hverb]
  rfl

end WordStage

/-! ## Lines -/

variable {ws : List WordStage} {texts : List Text} {line : Text}

/-- The pieces of a written line between its pipe characters are the written stages, with blanks
around them. -/
theorem strip_segments (h : List.Forall₂ WordStage.Writes ws texts) (hne : texts ≠ [])
    {before : Text} (hb : before = [] ∨ before = [' ']) :
    (Token.segments (before ++ Text.join " | " texts)).map Text.strip = texts := by
  -- The blanks around a pipe character are part of the pieces on both sides, hence `before`.
  induction h generalizing before with
  | nil => exact absurd rfl hne
  | @cons w t ws texts ht hrest ih =>
      obtain ⟨xs, hw⟩ := ht.writes
      obtain ⟨htne, htrim⟩ := ht.trimmed
      have hbefore : ∃ ys, Token.Writes before ys := by
        rcases hb with rfl | rfl
        · exact ⟨_, .nil⟩
        · exact ⟨_, .plain rfl (by decide) .nil⟩
      have hblank : ∀ c ∈ before, Text.isBlank c = true := by
        rcases hb with rfl | rfl
        · simp
        · simp; decide
      obtain ⟨ys, hy⟩ := hbefore
      cases texts with
      | nil =>
          have hs := (hy.append hw).segmentsFrom_append []
          have hstrip : Text.strip (before ++ t ++ []) = t :=
            Text.strip_padded hblank htrim htne (by simp)
          rw [List.append_nil] at hs hstrip
          simp [Token.segments, hs, Token.segmentsFrom, Token.inFront, hstrip]
      | cons u us =>
          have hspace : Token.Writes [' '] [(' ', false)] := .plain rfl (by decide) .nil
          have hs := ((hy.append hw).append hspace).segmentsFrom_append
            ('|' :: ([' '] ++ Text.join " | " (u :: us)))
          have hj : before ++ Text.join " | " (t :: u :: us)
              = before ++ t ++ [' '] ++ '|' :: ([' '] ++ Text.join " | " (u :: us)) := by
            simp [Text.join]
          have hstrip : Text.strip (before ++ t ++ [' ']) = t :=
            Text.strip_padded hblank htrim htne (by simp; decide)
          have ih : (Token.segments ([' '] ++ Text.join " | " (u :: us))).map Text.strip = u :: us :=
            ih (by simp) (Or.inr rfl)
          rw [hj, Token.segments, hs, Token.segmentsFrom, if_pos ⟨rfl, rfl⟩, Token.inFront,
            List.append_nil, List.map_cons, hstrip]
          exact congrArg (t :: ·) ih

theorem WritesLine.starts {w : WordStage} (h : WritesLine (w :: ws) line) :
    ∃ rest, line = w.word ++ rest ∧ ∀ c ∈ rest.head?, c = ' ' := by
  obtain ⟨texts, htexts, rfl⟩ := h
  cases htexts with
  | @cons _ t _ texts ht hrest =>
      obtain ⟨rest, rfl, hr⟩ := ht.starts
      cases texts with
      | nil => exact ⟨rest, rfl, hr⟩
      | cons u us =>
          refine ⟨rest ++ (" | " ++ Text.join " | " (u :: us)), by simp [Text.join], ?_⟩
          cases rest with
          | nil => simp
          | cons c rest => simpa using hr

theorem WritesLine.trimmed (h : WritesLine ws line) (hne : ws ≠ []) : line.Trimmed := by
  obtain ⟨texts, htexts, rfl⟩ := h
  have htne : texts ≠ [] := by
    rintro rfl
    cases htexts
    exact hne rfl
  refine (Text.trimmed_join (fun t ht => ?_) htne).2
  obtain ⟨w, _, hw⟩ := exists_of_mem_right htexts ht
  exact hw.trimmed

theorem WritesLine.commandSegments_eq (h : WritesLine ws line) (hne : ws ≠ []) :
    List.Forall₂ WordStage.Writes ws (Pipeline.commandSegments line) := by
  have hstrip := (h.trimmed hne).strip_eq
  obtain ⟨texts, htexts, rfl⟩ := h
  have htne : texts ≠ [] := by
    rintro rfl
    cases htexts
    exact hne rfl
  have hseg : (Token.segments ([] ++ Text.join " | " texts)).map Text.strip = texts :=
    strip_segments htexts htne (Or.inl rfl)
  rw [List.nil_append] at hseg
  rw [Pipeline.commandSegments, hstrip, hseg, List.filter_eq_self.mpr]
  · exact htexts
  · intro t ht
    obtain ⟨w, _, hw⟩ := exists_of_mem_right htexts ht
    simpa using hw.trimmed.1

/-- A written line looks like a pipeline unless it has no pipe character and reads like a request. -/
theorem WritesLine.looksLikePipeline (h : WritesLine ws line) (hne : ws ≠ [])
    (hcommand : '|' ∈ line ∨ Pipeline.isRequest line = false) :
    Pipeline.looksLikePipeline line = true := by
  have hstrip := (h.trimmed hne).strip_eq
  cases ws with
  | nil => exact absurd rfl hne
  | cons w ws =>
      obtain ⟨rest, hline, hrest⟩ := h.starts
      have hplain : ∀ c ∈ w.word, decide (c ≠ '|') = true := fun c hc => by
        simpa using (Verb.plain_of_resolve w.names c hc).2
      have hfirst : Text.firstWord (line.takeWhile (· ≠ '|')) = w.word := by
        rw [hline, List.takeWhile_append_of_pos hplain]
        refine Text.firstWord_append w.word_ne_nil w.blankless fun c hc => ?_
        cases rest with
        | nil => simp at hc
        | cons d rest =>
            obtain rfl : d = ' ' := hrest d rfl
            obtain rfl : ' ' = c := by simpa using hc
            decide
      have hknown : Verb.isKnown w.word = true := by simp [Verb.isKnown, w.names]
      simp only [Pipeline.looksLikePipeline, hstrip, hfirst, hknown, Bool.true_and, Bool.or_eq_true,
        List.contains_iff_mem, Bool.not_eq_true']
      exact hcommand

theorem readStages_of_writes {stages : List Stage} (h : List.Forall₂ WordStage.Writes ws texts)
    (hreads : List.Forall₂ WordStage.Reads ws stages) :
    Pipeline.readStages texts = .ok (.ok stages) := by
  induction h generalizing stages with
  | nil =>
      cases hreads
      rfl
  | cons ht _ ih =>
      cases hreads with
      | cons hs hrest => simp [Pipeline.readStages, ht.readStage_eq hs, ih hrest]

theorem exists_writesLine (ws : List WordStage) : ∃ line, WritesLine ws line := by
  have hstage (w : WordStage) : ∃ shown, w.Writes shown := by
    obtain ⟨operands, h⟩ := exists_forall₂ exists_writesOperand w.operands
    exact ⟨_, operands, h, rfl⟩
  obtain ⟨texts, h⟩ := exists_forall₂ hstage ws
  exact ⟨_, texts, h, rfl⟩

theorem ofStages_eq {stages : List Stage} (hne : stages ≠ [])
    (hsource : ∀ s ∈ stages.head?, Pipeline.requiresSource s.verb = true →
      s.args.has .path = true ∨ s.args.has .paths = true) :
    Pipeline.ofStages stages = { stages, isPipeline := true } := by
  cases stages with
  | nil => exact absurd rfl hne
  | cons s stages =>
      rw [Pipeline.ofStages, if_neg]
      intro h
      simp only [Bool.and_eq_true, Bool.not_eq_true'] at h
      rcases hsource s rfl h.1.1 with hp | hp
      · simp [hp] at h
      · simp [hp] at h

/-- Every pipeline can be written, and every line that it is written as is read as its stages in
order, provided that their arguments can be read, that the line is not taken for a request, and that
the first stage names a file where its verb requires one. -/
theorem read_writesLine {stages : List Stage} (hne : ws ≠ [])
    (hreads : List.Forall₂ WordStage.Reads ws stages)
    (hsource : ∀ s ∈ stages.head?, Pipeline.requiresSource s.verb = true →
      s.args.has .path = true ∨ s.args.has .paths = true) :
    (∃ line, WritesLine ws line)
      ∧ ∀ line, WritesLine ws line → '|' ∈ line ∨ Pipeline.isRequest line = false →
        Pipeline.read line = .ok { stages, isPipeline := true }
          ∧ Pipeline.isRunnable { stages, isPipeline := true } = true := by
  have hsne : stages ≠ [] := by
    rintro rfl
    cases hreads
    exact hne rfl
  refine ⟨exists_writesLine ws, fun line hline hcommand => ⟨?_, by simp [Pipeline.isRunnable, hsne]⟩⟩
  have hstages := readStages_of_writes (hline.commandSegments_eq hne) hreads
  rw [Pipeline.read, if_pos (hline.looksLikePipeline hne hcommand), hstages]
  exact congrArg Except.ok (ofStages_eq hsne hsource)

/-- A pipe character in quotes does not end the stage, and the verb's word may be in capitals. -/
theorem read_quoted_pipe :
    Pipeline.read "CAT \"a|b\"'\"' | wc" = .ok
      { stages := [⟨.concatenate, [(.path, .text "a|b\"")]⟩, ⟨.wordCount, []⟩], isPipeline := true } := by
  have hcat : ("CAT" : Text).all (!Text.isBlank ·) = true := rfl
  have hcount : ("wc" : Text).all (!Text.isBlank ·) = true := rfl
  let cat : WordStage := {
    word := "CAT", verb := .concatenate, operands := ["a|b\""]
    names := by decide, blankless := by simpa using hcat, filled := by decide }
  let count : WordStage := {
    word := "wc", verb := .wordCount, operands := []
    names := by decide, blankless := by simpa using hcount, filled := by decide }
  have hline : WritesLine [cat, count] "CAT \"a|b\"'\"' | wc" := by
    refine ⟨["CAT \"a|b\"'\"'", "wc"], .cons ⟨["\"a|b\"'\"'"], .cons ?_ .nil, rfl⟩
      (.cons ⟨[], .nil, rfl⟩ .nil), rfl⟩
    exact ⟨[⟨'"', "a|b", rfl, by decide⟩, ⟨'\'', "\"", rfl, by decide⟩], rfl, rfl⟩
  have hreads : List.Forall₂ WordStage.Reads [cat, count]
      [⟨.concatenate, [(.path, .text "a|b\"")]⟩, ⟨.wordCount, []⟩] :=
    .cons ⟨rfl, rfl⟩ (.cons ⟨rfl, rfl⟩ .nil)
  have hread := read_writesLine (by simp) hreads (by rintro _ ⟨⟩; exact fun _ => Or.inl rfl)
  exact (hread.2 _ hline (Or.inl (by decide))).1

end PipeShell
