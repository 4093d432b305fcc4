import PipeShell.Proofs.Path.Resolve
import PipeShell.Text.Lines

/-!
# The characters of a text

What cutting, joining and resolving make of a text holds no other characters than the text itself
and the separators that were put in.
-/

namespace PipeShell

/-- Every character of the text is one of `A`. -/
def Text.Within (A : Char → Prop) (t : Text) : Prop :=
  ∀ c ∈ t, A c

namespace Text

variable {A B : Char → Prop} {t u sep : Text} {ts : List Text} {c : Char}

@[simp] theorem within_nil : Within A [] := by
  simp [Within]

@[simp] theorem within_cons : Within A (c :: t) ↔ A c ∧ t.Within A := by
  simp [Within]

@[simp] theorem within_append : Within A (t ++ u) ↔ t.Within A ∧ u.Within A := by
  simp [Within, or_imp, forall_and]

theorem Within.mono (h : t.Within A) (hAB : ∀ c, A c → B c) : t.Within B :=
  fun c hc => hAB c (h c hc)

theorem Within.subset (h : t.Within A) (hu : u ⊆ t) : u.Within A :=
  fun c hc => h c (hu hc)

theorem within_join (hsep : sep.Within A) (h : ∀ t ∈ ts, t.Within A) : (join sep ts).Within A := by
  induction ts with
  | nil => exact within_nil
  | cons t ts ih =>
      by_cases hts : ts = []
      · subst hts
        exact h t (by simp)
      · rw [join_cons sep t hts]
        simp [h t, hsep, ih fun u hu => h u (by simp [hu])]

theorem subset_of_mem_pieces {p : Char → Bool} {piece : Text} (h : piece ∈ pieces p t) :
    piece ⊆ t := by
  induction t generalizing piece with
  | nil =>
      obtain rfl : piece = [] := by simpa [pieces] using h
      exact List.nil_subset _
  | cons c t ih =>
      simp only [pieces] at h
      split at h
      · rcases List.mem_cons.mp h with rfl | h
        · exact List.nil_subset _
        · exact List.subset_cons_of_subset c (ih h)
      · split at h
        · obtain rfl := List.mem_singleton.mp h
          simp
        · rename_i first rest hp
          rcases List.mem_cons.mp h with rfl | h
          · exact List.cons_subset_cons c (ih (by simp [hp]))
          · exact List.subset_cons_of_subset c (ih (by simp [hp, h]))

theorem subset_of_mem_lines {line : Text} (h : line ∈ lines t) : line ⊆ t := by
  have hdrop : dropFinalNewline t ⊆ t := by
    unfold dropFinalNewline
    split
    · exact List.dropLast_subset t
    · exact List.Subset.refl t
  unfold lines at h
  split at h
  · cases h
  · rename_i hcons
    rw [← hcons] at h
    exact List.Subset.trans (subset_of_mem_pieces h) hdrop

theorem strip_subset (t : Text) : strip t ⊆ t := by
  have hright : strip t ⊆ stripLeft t := by
    intro c hc
    rw [strip, stripRight, List.mem_reverse] at hc
    exact List.mem_reverse.mp ((List.dropWhile_sublist _).subset hc)
  exact List.Subset.trans hright (List.dropWhile_sublist _).subset

theorem within_ne : t.Within (· ≠ c) ↔ c ∉ t := by
  constructor
  · intro h hc
    exact h c hc rfl
  · intro h d hd heq
    exact h (heq ▸ hd)

/-! ## Newlines -/

theorem not_mem_unifyNewlines (t : Text) : '\r' ∉ unifyNewlines t := by
  fun_induction unifyNewlines t with
  | case1 => simp
  | case2 t ih => simpa using ih
  | case3 c t hpair ih =>
      rw [List.mem_cons, not_or]
      refine ⟨?_, ih⟩
      by_cases hc : c = '\r'
      · simp [hc]
      · simpa [hc] using Ne.symm hc

theorem unifyNewlines_of_not_mem (h : '\r' ∉ t) : unifyNewlines t = t := by
  induction t with
  | nil => rfl
  | cons c t ih =>
      obtain ⟨hc, ht⟩ : c ≠ '\r' ∧ '\r' ∉ t := by simpa [eq_comm] using h
      rw [unifyNewlines]
      · simp [hc, ih ht]
      · rintro _ rfl
        exact absurd rfl hc

/-! ## Plain texts -/

variable (hA : ∀ c, c ≠ '\r' → A c)
include hA

theorem within_of_not_mem (h : '\r' ∉ t) : t.Within A :=
  fun c hc => hA c fun hcr => h (hcr ▸ hc)

theorem within_ofNat (n : Nat) : (ofNat n).Within A := by
  refine within_of_not_mem hA ?_
  intro hc
  have hdigit := Nat.isDigit_of_mem_toDigits (by simp) (by simp) hc
  exact absurd hdigit (by decide)

theorem within_ofInt (n : Int) : (ofInt n).Within A := by
  cases n with
  | ofNat n => exact within_ofNat hA n
  | negSucc n => exact within_cons.mpr ⟨hA _ (by decide), within_ofNat hA (n + 1)⟩

theorem within_padLeft (width : Nat) (h : t.Within A) : (padLeft width t).Within A := by
  refine within_append.mpr ⟨?_, h⟩
  intro c hc
  rw [List.eq_of_mem_replicate hc]
  exact hA _ (by decide)

theorem within_joinLines (h : ∀ line ∈ ts, line.Within A) : (joinLines ts).Within A :=
  within_join (within_of_not_mem hA (by decide)) h

end Text

/-! ## Paths -/

namespace Path

variable {A : Char → Prop} {path cwd s : Text} {names paths : List Text}

theorem within_of_mem_segments (h : path.Within A) (hs : s ∈ segments path) : s.Within A :=
  h.subset (Text.subset_of_mem_pieces (mem_segments.mp hs).1)

theorem within_name (h : path.Within A) : (name path).Within A := by
  rw [name, parentAndName]
  cases hlast : (segments path).getLast? with
  | none => simp [List.getLast?_eq_none_iff.mp hlast]
  | some s =>
      rw [List.getLastD_eq_getLast?, hlast]
      exact within_of_mem_segments h (List.mem_of_getLast? hlast)

variable (hslash : A '/')
include hslash

theorem within_ofSegments (h : ∀ s ∈ names, s.Within A) : (ofSegments names).Within A :=
  Text.within_join (Text.within_cons.mpr ⟨hslash, Text.within_nil⟩) h

theorem within_join (h : ∀ path ∈ paths, path.Within A) : (join paths).Within A := by
  refine within_ofSegments hslash ?_
  intro s hs
  obtain ⟨path, hpath, hs⟩ := List.mem_flatMap.mp hs
  exact within_of_mem_segments (h path hpath) hs

theorem within_resolve {path : Option Text} (hcwd : cwd.Within A) (h : ∀ t ∈ path, t.Within A) :
    (resolve cwd path).Within A := by
  have hrooted {t : Text} (ht : t.Within A) : ∀ s ∈ rooted t, s.Within A := by
    intro s hs
    rcases segments_rooted_subset hs with rfl | hs
    · simp [hslash]
    · exact within_of_mem_segments ht hs
  have hpath : (path.getD []).Within A := by
    cases path with
    | none => exact Text.within_nil
    | some t => exact h t rfl
  refine within_ofSegments hslash ?_
  intro s hs
  have hmem := (mem_walk hs).1
  split at hmem
  · exact hrooted hpath s hmem
  · rcases List.mem_append.mp hmem with hmem | hmem
    · exact hrooted hcwd s hmem
    · exact within_of_mem_segments hpath hmem

end Path

end PipeShell
