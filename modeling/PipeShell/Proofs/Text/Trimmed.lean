import Mathlib.Data.List.TakeWhile
import PipeShell.Proofs.Text.Pieces
import PipeShell.Text.Blank

/-!
# Stripping

A text that neither starts nor ends with a blank is what is left when the blanks around it are
stripped. Blanks that are put around a text are stripped with those that it has.
-/

namespace PipeShell.Text

/-- The text neither starts nor ends with a blank. -/
structure Trimmed (t : Text) : Prop where
  start : ∀ c ∈ t.head?, isBlank c = false
  finish : ∀ c ∈ t.getLast?, isBlank c = false

theorem stripLeft_append {before t : Text} (hb : ∀ c ∈ before, isBlank c = true)
    (ht : ∀ c ∈ t.head?, isBlank c = false) : stripLeft (before ++ t) = t := by
  rw [stripLeft, List.dropWhile_append_of_pos hb]
  cases t with
  | nil => rfl
  | cons c t => exact List.dropWhile_cons_of_neg (by simp [ht c rfl])

theorem stripRight_append {t after : Text} (ha : ∀ c ∈ after, isBlank c = true)
    (ht : ∀ c ∈ t.getLast?, isBlank c = false) : stripRight (t ++ after) = t := by
  have h : stripLeft (after.reverse ++ t.reverse) = t.reverse :=
    stripLeft_append (by simpa using ha) (by simpa using ht)
  rw [stripRight, List.reverse_append]
  rw [stripLeft] at h
  rw [h, List.reverse_reverse]

theorem strip_padded {before t after : Text} (hb : ∀ c ∈ before, isBlank c = true)
    (ht : t.Trimmed) (hne : t ≠ []) (ha : ∀ c ∈ after, isBlank c = true) :
    strip (before ++ t ++ after) = t := by
  have hstart : ∀ c ∈ (t ++ after).head?, isBlank c = false := by
    intro c hc
    cases t with
    | nil => exact absurd rfl hne
    | cons d t => exact ht.start c (by simpa using hc)
  rw [strip, List.append_assoc, stripLeft_append hb hstart, stripRight_append ha ht.finish]

theorem Trimmed.strip_eq {t : Text} (h : t.Trimmed) : strip t = t := by
  have hl : stripLeft ([] ++ t) = t := stripLeft_append (by simp) h.start
  have hr : stripRight (t ++ []) = t := stripRight_append (by simp) h.finish
  rw [List.nil_append] at hl
  rw [List.append_nil] at hr
  rw [strip, hl, hr]

theorem Trimmed.append {t u : Text} (ht : t.Trimmed) (hu : u.Trimmed) (htne : t ≠ []) (hune : u ≠ [])
    (between : Text) : (t ++ between ++ u).Trimmed where
  start := by
    cases t with
    | nil => exact absurd rfl htne
    | cons c t => simpa using ht.start
  finish := by
    obtain ⟨c, hc⟩ := Option.ne_none_iff_exists'.mp (mt List.getLast?_eq_none_iff.mp hune)
    rw [List.getLast?_append, hc, Option.some_or, ← hc]
    exact hu.finish

theorem trimmed_join {sep : Text} {ts : List Text} (h : ∀ t ∈ ts, t ≠ [] ∧ t.Trimmed)
    (hne : ts ≠ []) : join sep ts ≠ [] ∧ (join sep ts).Trimmed := by
  induction ts with
  | nil => exact absurd rfl hne
  | cons t ts ih =>
      obtain ⟨ht, htrim⟩ := h t (by simp)
      cases ts with
      | nil => exact ⟨ht, htrim⟩
      | cons u us =>
          obtain ⟨hj, hjtrim⟩ := ih (fun s hs => h s (by simp [hs])) (by simp)
          rw [join_cons sep t (by simp)]
          exact ⟨by simp [ht], htrim.append hjtrim ht hj sep⟩

theorem firstWord_append {word rest : Text} (hne : word ≠ [])
    (hw : ∀ c ∈ word, isBlank c = false) (hr : ∀ c ∈ rest.head?, isBlank c = true) :
    firstWord (word ++ rest) = word := by
  cases rest with
  | nil => simp [firstWord, words, runs, pieces_of_uncut hw, hne]
  | cons c rest =>
      have hc : isBlank c = true := hr c rfl
      simp [firstWord, words, runs, pieces_append_cons word rest hc, pieces_of_uncut hw, hne]

/-- A text that starts with no blank starts with its first word, and a blank follows if anything
does. -/
theorem exists_firstWord_append {t : Text} (ht : ∀ c ∈ t.head?, isBlank c = false) :
    ∃ rest, t = firstWord t ++ rest ∧ ∀ c ∈ rest.head?, isBlank c = true := by
  cases t with
  | nil => exact ⟨[], rfl, by simp⟩
  | cons c t =>
      let word := (c :: t).takeWhile (!isBlank ·)
      let rest := (c :: t).dropWhile (!isBlank ·)
      have hcut : word ++ rest = c :: t := List.takeWhile_append_dropWhile
      have hword : ∀ d ∈ word, isBlank d = false := fun d hd => by
        simpa using List.mem_takeWhile_imp hd
      have hrest : ∀ d ∈ rest.head?, isBlank d = true := by
        intro d hd
        have h := List.head?_dropWhile_not (!isBlank ·) (c :: t)
        rw [Option.mem_def.mp hd] at h
        simpa using h
      have hne : word ≠ [] := by simp [word, ht c rfl]
      refine ⟨rest, ?_, hrest⟩
      rw [← hcut, firstWord_append hne hword hrest]

/-! ## What is stripped -/

theorem stripLeft_append_of_blank {before : Text} (hb : ∀ c ∈ before, isBlank c = true) (t : Text) :
    stripLeft (before ++ t) = stripLeft t :=
  List.dropWhile_append_of_pos hb

theorem stripRight_append_of_blank {after : Text} (ha : ∀ c ∈ after, isBlank c = true) (t : Text) :
    stripRight (t ++ after) = stripRight t := by
  have h : stripLeft (after.reverse ++ t.reverse) = stripLeft t.reverse :=
    stripLeft_append_of_blank (by simpa using ha) t.reverse
  rw [stripRight, List.reverse_append]
  exact congrArg List.reverse h

theorem exists_blanks_stripLeft (t : Text) :
    ∃ before, (∀ c ∈ before, isBlank c = true) ∧ t = before ++ stripLeft t :=
  ⟨t.takeWhile isBlank, fun _ hc => List.mem_takeWhile_imp hc,
    List.takeWhile_append_dropWhile.symm⟩

theorem exists_blanks_stripRight (t : Text) :
    ∃ after, (∀ c ∈ after, isBlank c = true) ∧ t = stripRight t ++ after := by
  obtain ⟨before, hb, ht⟩ := exists_blanks_stripLeft t.reverse
  refine ⟨before.reverse, by simpa using hb, ?_⟩
  rw [stripRight, ← List.reverse_append]
  exact List.reverse_eq_iff.mp ht

theorem stripRight_append_of_open {t : Text} (ht : ∀ c ∈ t.getLast?, isBlank c = false)
    (after : Text) : stripRight (t ++ after) = t ++ stripRight after := by
  have hkeep : stripRight (t ++ []) = t := stripRight_append (by simp) ht
  rw [List.append_nil, stripRight] at hkeep
  rw [stripRight, stripRight, List.reverse_append, List.dropWhile_append]
  split
  · rename_i hempty
    rw [List.isEmpty_iff.mp hempty, hkeep]
    simp
  · simp

theorem strip_append_of_open {t : Text} (ht : t.Trimmed) (hne : t ≠ []) (after : Text) :
    strip (t ++ after) = t ++ stripRight after := by
  have hstart : ∀ c ∈ (t ++ after).head?, isBlank c = false := by
    obtain ⟨c, t, rfl⟩ := List.exists_cons_of_ne_nil hne
    exact ht.start
  have hleft : stripLeft ([] ++ (t ++ after)) = t ++ after := stripLeft_append (by simp) hstart
  rw [List.nil_append] at hleft
  rw [strip, hleft, stripRight_append_of_open ht.finish]

theorem head?_stripRight {t : Text} : ∀ c ∈ (stripRight t).head?, c ∈ t.head? := by
  intro c hc
  obtain ⟨after, -, hcut⟩ := exists_blanks_stripRight t
  rw [hcut, List.head?_append, Option.mem_def.mp hc, Option.some_or, Option.mem_def]

theorem strip_blank_append {before : Text} (hb : ∀ c ∈ before, isBlank c = true) (t : Text) :
    strip (before ++ t) = strip t := by
  rw [strip, stripLeft_append_of_blank hb, strip]

theorem strip_append_blank {after : Text} (ha : ∀ c ∈ after, isBlank c = true) (t : Text) :
    strip (t ++ after) = strip t := by
  rw [strip, strip]
  by_cases ht : stripLeft t = []
  · have hblank : ∀ c ∈ t ++ after, isBlank c = true := by
      intro c hc
      rcases List.mem_append.mp hc with hc | hc
      · exact List.dropWhile_eq_nil_iff.mp ht c hc
      · exact ha c hc
    rw [ht, stripLeft, List.dropWhile_eq_nil_iff.mpr hblank]
  · have hleft : stripLeft (t ++ after) = stripLeft t ++ after := by
      have hne : ¬(t.dropWhile isBlank).isEmpty = true := by simpa [stripLeft] using ht
      rw [stripLeft, List.dropWhile_append, if_neg hne]
      rfl
    rw [hleft, stripRight_append_of_blank ha]

theorem exists_blanks_strip (t : Text) : ∃ before after, (∀ c ∈ before, isBlank c = true)
    ∧ (∀ c ∈ after, isBlank c = true) ∧ t = before ++ strip t ++ after := by
  obtain ⟨before, hb, hleft⟩ := exists_blanks_stripLeft t
  obtain ⟨after, ha, hright⟩ := exists_blanks_stripRight (stripLeft t)
  exact ⟨before, after, hb, ha, by rw [List.append_assoc, strip, ← hright, ← hleft]⟩

theorem trimmed_of_blankless {t : Text} (h : ∀ c ∈ t, isBlank c = false) : t.Trimmed where
  start c hc := h c (List.mem_of_head? hc)
  finish c hc := h c (List.mem_of_getLast? hc)

theorem stripLeft_start (t : Text) : ∀ c ∈ (stripLeft t).head?, isBlank c = false := by
  intro c hc
  have h := List.head?_dropWhile_not isBlank t
  rw [stripLeft] at hc
  rwa [Option.mem_def.mp hc] at h

theorem trimmed_strip (t : Text) : (strip t).Trimmed where
  start := by
    intro c hc
    obtain ⟨after, -, hright⟩ := exists_blanks_stripRight (stripLeft t)
    refine stripLeft_start t c ?_
    rw [hright, List.head?_append, ← strip, Option.mem_def.mp hc]
    rfl
  finish := by
    intro c hc
    refine stripLeft_start (stripLeft t).reverse c ?_
    rwa [strip, stripRight, List.getLast?_reverse] at hc

theorem mem_strip {c : Char} {t : Text} (hc : isBlank c = false) (h : c ∈ t) : c ∈ strip t := by
  obtain ⟨before, after, hb, ha, ht⟩ := exists_blanks_strip t
  have hnot {u : Text} (hu : ∀ c ∈ u, isBlank c = true) : c ∉ u := fun hcu => by
    simp [hu c hcu] at hc
  rw [ht] at h
  simpa [hnot hb, hnot ha] using h

end PipeShell.Text
