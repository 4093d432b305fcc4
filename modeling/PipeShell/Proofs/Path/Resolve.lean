import PipeShell.Proofs.Path.Segments

/-!
# What a user's path resolves to

A walk along the pieces of a path, from the root or from the working directory, fixes the store path.
Only a path with a root of its own, which no `..` steps back to, leads elsewhere: its own root stays
in front.
-/

namespace PipeShell.Path

/-! ## The walk -/

/-- The names walked so far after one more piece of a path: an empty piece and `.` change nothing,
`..` steps back and stays at the root. -/
def advance (walked : List Text) (piece : Text) : List Text :=
  if piece = [] ∨ piece = ['.'] then walked
  else if piece = ['.', '.'] then walked.dropLast
  else walked ++ [piece]

/-- The names that the pieces of a path lead to, from the root or else from a working directory. -/
def trail (cwd path : Text) : List Text :=
  ((if isAbsolute path then [] else Text.pieces (· == '/') cwd)
    ++ Text.pieces (· == '/') path).foldl advance []

theorem foldl_advance (pieces walked : List Text) :
    pieces.foldl advance walked.reverse
      = ((pieces.filter fun s => s ≠ [] && s ≠ ['.']).foldl step walked).reverse := by
  induction pieces generalizing walked with
  | nil => rfl
  | cons piece pieces ih =>
      simp only [List.foldl_cons, advance]
      by_cases hskip : piece = [] ∨ piece = ['.']
      · rw [if_pos hskip, ih]
        rcases hskip with rfl | rfl <;> simp
      · have hkeep : piece ≠ [] ∧ piece ≠ ['.'] := not_or.mp hskip
        rw [if_neg hskip, List.filter_cons_of_pos (by simp [hkeep]), List.foldl_cons, step]
        split
        · rw [← ih, List.dropLast_reverse]
        · rw [← ih, List.reverse_cons]

theorem trail_eq_walk (cwd path : Text) :
    trail cwd path
      = walk ((if isAbsolute path then [] else segments cwd) ++ segments path) := by
  have h := foldl_advance ((if isAbsolute path then [] else Text.pieces (· == '/') cwd)
    ++ Text.pieces (· == '/') path) []
  rw [List.reverse_nil] at h
  rw [trail, h, List.filter_append, walk]
  cases isAbsolute path <;> rfl

theorem mem_foldl_step {segments walked : List Text} {s : Text}
    (h : s ∈ segments.foldl step walked) : s ∈ walked ∨ (s ∈ segments ∧ s ≠ ['.', '.']) := by
  induction segments generalizing walked with
  | nil => exact Or.inl h
  | cons t segments ih =>
      rw [List.foldl_cons] at h
      rcases ih h with hw | ⟨hs, hb⟩
      · unfold step at hw
        split at hw
        · exact Or.inl (List.mem_of_mem_tail hw)
        · rename_i ht
          rcases List.mem_cons.mp hw with rfl | hw
          · exact Or.inr ⟨by simp, ht⟩
          · exact Or.inl hw
      · exact Or.inr ⟨by simp [hs], hb⟩

theorem mem_walk {segments : List Text} {s : Text} (h : s ∈ walk segments) :
    s ∈ segments ∧ s ≠ ['.', '.'] := by
  have h := mem_foldl_step (List.mem_reverse.mp h)
  simpa using h

theorem walk_of_forward {segments : List Text} (h : ∀ s ∈ segments, s ≠ ['.', '.']) :
    walk segments = segments := by
  have hfold (walked : List Text) : segments.foldl step walked = segments.reverse ++ walked := by
    induction segments generalizing walked with
    | nil => rfl
    | cons s segments ih =>
        rw [List.foldl_cons, step, if_neg (h s (by simp)), ih fun t ht => h t (by simp [ht])]
        simp
  simp [walk, hfold]

/-- The last segment leads one step on from where those before it lead. -/
theorem walk_concat (segments : List Text) (s : Text) :
    walk (segments ++ [s])
      = if s = ['.', '.'] then (walk segments).dropLast else walk segments ++ [s] := by
  rw [walk, List.foldl_append, List.foldl_cons, List.foldl_nil, step, walk]
  split <;> simp

theorem isName_of_mem_walk {segments : List Text} (hs : ∀ s ∈ segments, IsSegment s) :
    ∀ s ∈ walk segments, IsName s :=
  fun s h => ⟨hs s (mem_walk h).1, (mem_walk h).2⟩

theorem isName_of_mem_trail (cwd path : Text) : ∀ s ∈ trail cwd path, IsName s := by
  rw [trail_eq_walk]
  apply isName_of_mem_walk
  intro s hs
  rcases List.mem_append.mp hs with hs | hs
  · split at hs
    · exact absurd hs (by simp)
    · exact isSegment_of_mem_segments hs
  · exact isSegment_of_mem_segments hs

/-! ## Roots of their own -/

/-- No `..` among the segments steps back past the start, from which `depth` names lead on. -/
def staysBelow : Nat → List Text → Bool
  | _, [] => true
  | depth, s :: rest =>
      if s = ['.', '.'] then depth ≠ 0 && staysBelow (depth - 1) rest
      else staysBelow (depth + 1) rest

/-- The path starts with exactly two slashes and never steps back past them. -/
def KeepsOwnRoot (path : Text) : Prop :=
  ownRoot path ≠ [] ∧ staysBelow 0 (segments path) = true

instance (path : Text) : Decidable (KeepsOwnRoot path) :=
  inferInstanceAs (Decidable (_ ∧ _))

theorem ownRoot_eq (path : Text) : ownRoot path = [] ∨ ownRoot path = [['/', '/']] := by
  unfold ownRoot
  split
  · exact Or.inr rfl
  · split
    · exact Or.inl rfl
    · exact Or.inr rfl
  · exact Or.inl rfl

theorem ownRoot_of_relative {path : Text} (h : isAbsolute path = false) : ownRoot path = [] := by
  unfold ownRoot
  split
  · simp [isAbsolute] at h
  · simp [isAbsolute] at h
  · rfl

theorem isAbsolute_of_ownRoot {path : Text} (h : ownRoot path ≠ []) : isAbsolute path = true := by
  cases ha : isAbsolute path with
  | true => rfl
  | false => exact absurd (ownRoot_of_relative ha) h

/-- What a walk starts from stays in front of it unless the walk steps back past it. -/
theorem foldl_step_concat (segments walked : List Text) (start : Text) :
    segments.foldl step (walked ++ [start])
      = if staysBelow walked.length segments then segments.foldl step walked ++ [start]
        else segments.foldl step walked := by
  induction segments generalizing walked with
  | nil => simp [staysBelow]
  | cons s segments ih =>
      by_cases hs : s = ['.', '.']
      · subst hs
        cases walked with
        | nil => simp [staysBelow, step]
        | cons w walked => simpa [staysBelow, step] using ih walked
      · simpa [staysBelow, step, hs] using ih (s :: walked)

theorem walk_cons_start {start : Text} (h : start ≠ ['.', '.']) (segments : List Text) :
    walk (start :: segments)
      = if staysBelow 0 segments then start :: walk segments else walk segments := by
  have hf := foldl_step_concat segments [] start
  rw [List.nil_append] at hf
  rw [walk, List.foldl_cons, step, if_neg h, hf]
  by_cases hb : staysBelow 0 segments = true <;> simp [hb, walk]

/-! ## Resolving -/

theorem resolve_absolute {path : Text} (h : isAbsolute path = true) (cwd : Text) :
    resolve cwd (some path) = ofSegments (walk (rooted path)) := by
  simp [resolve, h]

/-- A path that does not keep a root of its own leads to its trail. -/
theorem resolve_of_not_keepsOwnRoot {cwd path : Text} (hc : Normal cwd)
    (hp : ¬KeepsOwnRoot path) : resolve cwd (some path) = ofSegments (trail cwd path) := by
  rw [trail_eq_walk]
  cases ha : isAbsolute path with
  | false =>
      simp only [resolve, Option.getD_some, ha, rooted, ownRoot_of_relative hc.relative]
      rfl
  | true =>
      rw [resolve_absolute ha, rooted]
      rcases ownRoot_eq path with ho | ho
      · simp [ho]
      · have hb : ¬staysBelow 0 (segments path) = true := fun hb => hp ⟨by simp [ho], hb⟩
        simp [ho, walk_cons_start, hb]

/-- A path that keeps a root of its own leads to its trail below that root. -/
theorem resolve_of_keepsOwnRoot {path : Text} (hp : KeepsOwnRoot path) (cwd : Text) :
    resolve cwd (some path) = ofSegments (['/', '/'] :: trail cwd path) := by
  have ha := isAbsolute_of_ownRoot hp.1
  rw [resolve_absolute ha, trail_eq_walk, rooted]
  rcases ownRoot_eq path with ho | ho
  · exact absurd ho hp.1
  · simp [ho, walk_cons_start, hp.2, ha]

theorem not_keepsOwnRoot_nil : ¬KeepsOwnRoot [] := fun h => h.1 rfl

theorem isAbsolute_ownRoot (names : List Text) :
    isAbsolute (ofSegments (['/', '/'] :: names)) = true := by
  cases names <;> rfl

theorem normal_resolve {cwd : Text} {path : Option Text} (hc : Normal cwd)
    (hp : ¬KeepsOwnRoot (path.getD [])) : Normal (resolve cwd path) := by
  have h : resolve cwd path = ofSegments (trail cwd (path.getD [])) := by
    rw [← resolve_of_not_keepsOwnRoot hc hp]
    cases path <;> rfl
  rw [h]
  exact normal_ofSegments (isName_of_mem_trail cwd _)

theorem ownRoot_display {path : Text} (h : isAbsolute path = false) : ownRoot (display path) = [] := by
  cases path with
  | nil => rfl
  | cons c path =>
      have hc : c ≠ '/' := by simpa [isAbsolute] using h
      simp [display, ownRoot, hc]

theorem resolve_display {path : Text} (h : Normal path) (cwd : Text) :
    resolve cwd (some (display path)) = path := by
  have hsegments : segments (display path) = segments path := segments_append_slash [] path
  rw [resolve_absolute rfl, rooted, ownRoot_display h.relative, List.nil_append, hsegments,
    walk_of_forward fun s hs => (h.forward s hs).ne_back, h.ofSegments_segments]

theorem segments_ownRoot : segments ['/', '/'] = [] := rfl

theorem segments_rooted_subset {path s : Text} (h : s ∈ rooted path) :
    s = ['/', '/'] ∨ s ∈ segments path := by
  rcases List.mem_append.mp h with h | h
  · rcases ownRoot_eq path with ho | ho <;> simp_all
  · exact Or.inr h

/-- Whether it keeps a root of its own or not, a resolved path does not step back. -/
theorem forward_resolve (cwd : Text) (path : Option Text) : Forward (resolve cwd path) := by
  intro s hs
  rw [resolve, segments_ofSegments_eq_flatMap] at hs
  obtain ⟨t, ht, hs⟩ := List.mem_flatMap.mp hs
  obtain ⟨hm, hb⟩ := mem_walk ht
  have ht : t = ['/', '/'] ∨ IsSegment t := by
    split at hm
    · exact (segments_rooted_subset hm).imp_right isSegment_of_mem_segments
    · rcases List.mem_append.mp hm with hm | hm
      · exact (segments_rooted_subset hm).imp_right isSegment_of_mem_segments
      · exact Or.inr (isSegment_of_mem_segments hm)
  rcases ht with rfl | ht
  · simp [segments_ownRoot] at hs
  · obtain rfl : s = t := by simpa [segments_of_isSegment ht] using hs
    exact ⟨ht, hb⟩

end PipeShell.Path
