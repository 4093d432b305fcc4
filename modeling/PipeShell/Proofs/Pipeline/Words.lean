import PipeShell.Text.Blank
import PipeShell.Token
import PipeShell.Verb

/-!
# Words of verbs

A word that names a verb in any letter case has no blank, no quote and no pipe character, because
these have no other case.
-/

namespace PipeShell.Verb

/-- All words that name verbs, in lower case. -/
def words : List Text :=
  all.map word ++ aliases.map Prod.fst

theorem lower_mem_words {name : Text} {v : Verb} (h : resolve? name = some v) :
    Text.lower name ∈ words := by
  rw [resolve?] at h
  cases ho : ofWord? (Text.lower name) with
  | some u =>
      have hw : u.word = Text.lower name := by simpa using List.find?_some ho
      have hm : u ∈ all := List.mem_of_find?_eq_some ho
      exact List.mem_append.mpr (Or.inl (List.mem_map.mpr ⟨u, hm, hw⟩))
  | none =>
      rw [ho] at h
      obtain ⟨front, back, hl, _⟩ := List.lookup_eq_some_iff.mp h
      have hm : (Text.lower name, v) ∈ aliases := by simp [hl]
      exact List.mem_append.mpr (Or.inr (List.mem_map.mpr ⟨_, hm, rfl⟩))

theorem mem_lower {c : Char} {t : Text} (hl : Text.lowerChar c = c) (hd : c ≠ '\u0130') (h : c ∈ t) :
    c ∈ Text.lower t := by
  refine List.mem_flatMap.mpr ⟨c, h, ?_⟩
  simp [hd, hl]

theorem words_plain : ∀ w ∈ words, w ≠ [] ∧ '"' ∉ w ∧ '\'' ∉ w ∧ '|' ∉ w := by
  decide

theorem ne_nil_of_resolve {name : Text} {v : Verb} (h : resolve? name = some v) : name ≠ [] := by
  rintro rfl
  exact (words_plain _ (lower_mem_words h)).1 rfl

theorem plain_of_resolve {name : Text} {v : Verb} (h : resolve? name = some v) :
    ∀ c ∈ name, Token.isQuote c = false ∧ c ≠ '|' := by
  obtain ⟨_, hdouble, hsingle, hpipe⟩ := words_plain _ (lower_mem_words h)
  intro c hc
  have hne (d : Char) (hl : Text.lowerChar d = d) (hd : d ≠ '\u0130')
      (hw : d ∉ Text.lower name) : c ≠ d := by
    rintro rfl
    exact hw (mem_lower hl hd hc)
  refine ⟨?_, hne '|' (by decide) (by decide) hpipe⟩
  simp [Token.isQuote, hne '"' (by decide) (by decide) hdouble,
    hne '\'' (by decide) (by decide) hsingle]

/-! ## Blanks -/

/-- The code points of a class that is given by an even number of changes. -/
def codes : List Nat → List Nat
  | first :: next :: rest => List.range' first (next - first) ++ codes rest
  | _ => []

theorem mem_codes {flips : List Nat} {n : Nat} (heven : flips.length % 2 = 0)
    (h : Text.inFlips flips n = true) : n ∈ codes flips := by
  fun_induction codes flips with
  | case1 first next rest ih =>
      have heven : rest.length % 2 = 0 := by
        simp only [List.length_cons] at heven
        omega
      simp only [List.mem_append, List.mem_range'_1]
      by_cases hrest : Text.inFlips rest n = true
      · exact Or.inr (ih heven hrest)
      · simp only [Text.inFlips] at h
        grind
  | case2 flips hflips =>
      match flips with
      | [] => simp [Text.inFlips] at h
      | [_] => simp at heven
      | first :: next :: rest => exact absurd rfl (hflips first next rest)

/-- A blank is its own lower case, and is not the dotted capital I. -/
theorem shifted_blank :
    ∀ n ∈ codes Text.blankFlips, n ≠ 304 ∧ Text.shifted Text.lowerShifts n = n := by
  decide +kernel

theorem words_blankless : ∀ w ∈ words, w.any Text.isBlank = false := by
  decide

/-- The word of a verb has no blank. -/
theorem blankless_of_resolve {name : Text} {v : Verb} (h : resolve? name = some v) :
    ∀ c ∈ name, Text.isBlank c = false := by
  intro c hc
  cases hblank : Text.isBlank c with
  | false => rfl
  | true =>
      obtain ⟨hdotted, hshift⟩ := shifted_blank _ (mem_codes rfl hblank)
      have hlower : Text.lowerChar c = c := by rw [Text.lowerChar, hshift, Char.ofNat_toNat]
      have hne : c ≠ '\u0130' := by
        rintro rfl
        exact hdotted rfl
      have hword := List.any_eq_false.mp (words_blankless _ (lower_mem_words h))
      exact absurd hblank (hword c (mem_lower hlower hne hc))

end PipeShell.Verb
