import PipeShell.Terminal.Keys

/-!
# Cutting an input between keys

An input may be split into its keys piece by piece exactly when no cut falls inside a key: once a
key is complete, what follows does not change it.
-/

namespace PipeShell.Keys

variable {t u : Text} {c : Char} {n : Nat}

/-- The number of characters that follow a character in the key that it starts. -/
def following (c : Char) (t : Text) : Nat :=
  if c == esc then escapeLength t else 0

/-! ## The keys of an input -/

/-- Induction along the keys of an input. -/
theorem split_induction {motive : Text → Prop} (nil : motive [])
    (key : ∀ c t, motive (t.drop (following c t)) → motive (c :: t)) (t : Text) : motive t := by
  induction hn : t.length using Nat.strongRecOn generalizing t with
  | ind n ih =>
      cases t with
      | nil => exact nil
      | cons c t =>
          refine key c t (ih _ ?_ _ rfl)
          rw [← hn, List.length_drop, List.length_cons]
          omega

theorem splitWithin_eq_split (hn : t.length ≤ n) : splitWithin n t = split t := by
  induction t using split_induction generalizing n with
  | nil => cases n <;> rfl
  | key c t ih =>
      have hdrop : (t.drop (following c t)).length ≤ t.length := by simp
      cases n with
      | zero => simp at hn
      | succ n =>
          rw [List.length_cons, Nat.add_le_add_iff_right] at hn
          rw [split, List.length_cons, splitWithin, splitWithin]
          congr 1
          exact (ih (Nat.le_trans hdrop hn)).trans (ih hdrop).symm

@[simp] theorem split_nil : split [] = [] := rfl

theorem split_cons (c : Char) (t : Text) :
    split (c :: t) = (c :: t.take (following c t)) :: split (t.drop (following c t)) := by
  have hdrop : (t.drop (following c t)).length ≤ t.length := by simp
  rw [split, List.length_cons, splitWithin]
  congr 1
  exact splitWithin_eq_split hdrop

theorem flatten_split (t : Text) : (split t).flatten = t := by
  induction t using split_induction with
  | nil => rfl
  | key c t ih =>
      rw [split_cons, List.flatten_cons, ih, List.cons_append, List.take_append_drop]

/-! ## Complete keys -/

theorem not_isParameter_of_isFinal (h : isFinal c = true) : isParameter c = false := by
  have hlow : 64 ≤ c.toNat := by
    simp only [isFinal, Bool.and_eq_true, decide_eq_true_eq] at h
    exact UInt32.le_iff_toNat_le.mp h.1
  rw [Bool.eq_false_iff]
  intro hp
  simp only [isParameter, Bool.or_eq_true, Bool.and_eq_true, decide_eq_true_eq, beq_iff_eq] at hp
  rcases hp with (⟨-, hhigh⟩ | rfl) | rfl
  · have hhigh : c.toNat ≤ 57 := UInt32.le_iff_toNat_le.mp hhigh
    omega
  · exact absurd hlow (by decide)
  · exact absurd hlow (by decide)

theorem controlLength?_eq_some {k : Nat} : controlLength? t = some k ↔
    ∃ parameters final rest, t = parameters ++ final :: rest
      ∧ (∀ c ∈ parameters, isParameter c = true) ∧ isFinal final = true
      ∧ k = parameters.length + 1 := by
  have hdrop : t.drop (t.takeWhile isParameter).length = t.dropWhile isParameter := by
    conv => enter [1, 2]; rw [← List.takeWhile_append_dropWhile (p := isParameter) (l := t)]
    rw [List.drop_left]
  simp only [controlLength?, hdrop]
  constructor
  · intro h
    split at h
    · rename_i final rest hrest
      split at h
      · rename_i hf
        refine ⟨t.takeWhile isParameter, final, rest, ?_, ?_, hf, (Option.some.inj h).symm⟩
        · rw [← hrest, List.takeWhile_append_dropWhile]
        · exact List.all_eq_true.mp List.all_takeWhile
      · cases h
    · cases h
  · rintro ⟨parameters, final, rest, rfl, hp, hf, rfl⟩
    have hfinal : ¬isParameter final = true := by simp [not_isParameter_of_isFinal hf]
    rw [List.dropWhile_append_of_pos hp, List.dropWhile_cons_of_neg hfinal,
      List.takeWhile_append_of_pos hp, List.takeWhile_cons_of_neg hfinal]
    simp [hf]

theorem controlLength?_append {k : Nat} (h : controlLength? t = some k) (u : Text) :
    controlLength? (t ++ u) = some k := by
  obtain ⟨parameters, final, rest, rfl, hp, hf, rfl⟩ := controlLength?_eq_some.mp h
  exact controlLength?_eq_some.mpr ⟨parameters, final, rest ++ u, by simp, hp, hf, rfl⟩

theorem controlLength?_of_append {k : Nat} (h : controlLength? (t ++ u) = some k)
    (hk : k ≤ t.length) : controlLength? t = some k := by
  obtain ⟨parameters, final, rest, ht, hp, hf, rfl⟩ := controlLength?_eq_some.mp h
  have htake : t = parameters ++ final :: rest.take (t.length - (parameters.length + 1)) := by
    have h := congrArg (List.take t.length) ht
    rw [List.take_left, show parameters ++ final :: rest = (parameters ++ [final]) ++ rest by simp,
      List.take_append, List.take_of_length_le (by simpa using hk)] at h
    simpa using h
  exact controlLength?_eq_some.mpr ⟨parameters, final, _, htake, hp, hf, rfl⟩

/-- A key that is complete within a text does not depend on what follows the text. -/
theorem escapeLength_of_append (h : escapeLength (t ++ u) ≤ t.length) :
    escapeLength (t ++ u) = escapeLength t := by
  cases t with
  | nil => exact Nat.le_zero.mp h
  | cons c t =>
      by_cases hbracket : c = '['
      · subst hbracket
        simp only [List.cons_append, escapeLength, List.length_cons] at h ⊢
        cases hwhole : controlLength? (t ++ u) with
        | some k =>
            rw [hwhole, Option.getD_some] at h
            rw [controlLength?_of_append hwhole (by omega)]
        | none =>
            cases hpart : controlLength? t with
            | some k => rw [controlLength?_append hpart] at hwhole; cases hwhole
            | none => rfl
      · by_cases hletter : c = 'O'
        · subst hletter
          cases t with
          | cons d t => rfl
          | nil =>
              cases u with
              | nil => rfl
              | cons d u => simp [escapeLength] at h
        · simp [escapeLength, hletter]

theorem following_of_append (h : following c (t ++ u) ≤ t.length) :
    following c (t ++ u) = following c t := by
  unfold following at h ⊢
  split
  · rename_i hc
    rw [if_pos hc] at h
    exact escapeLength_of_append h
  · rfl

/-! ## Cuts -/

/-- A key of the input ends after the first `n` characters. -/
def IsBoundary (t : Text) (n : Nat) : Prop :=
  ∃ i, ((split t).take i).flatten.length = n

theorem split_append_of_isBoundary (h : IsBoundary (t ++ u) t.length) :
    split (t ++ u) = split t ++ split u := by
  obtain ⟨i, hi⟩ := h
  -- On the number of keys before the boundary.
  induction i generalizing t with
  | zero =>
      obtain rfl : t = [] := List.length_eq_zero_iff.mp hi.symm
      rfl
  | succ i ih =>
      cases t with
      | nil => rfl
      | cons c t =>
          rw [List.cons_append, split_cons, List.take_succ_cons, List.flatten_cons] at hi
          simp only [List.length_append, List.length_cons, List.length_take] at hi
          cases u with
          | nil => simp
          | cons d u =>
              have hwithin : following c (t ++ d :: u) ≤ t.length := by
                rw [List.length_cons] at hi
                omega
              have hsame := following_of_append hwithin
              rw [hsame] at hwithin hi
              have hdrop : (t ++ d :: u).drop (following c t) = t.drop (following c t) ++ d :: u :=
                List.drop_append_of_le_length hwithin
              rw [hdrop, List.length_cons] at hi
              rw [List.cons_append, split_cons, split_cons, hsame, hdrop,
                List.take_append_of_le_length hwithin, List.cons_append]
              congr 1
              refine ih ?_
              rw [List.length_drop]
              omega

theorem flatten_flatMap_split (texts : List Text) :
    (texts.flatMap split).flatten = texts.flatten := by
  induction texts with
  | nil => rfl
  | cons t texts ih =>
      rw [List.flatMap_cons, List.flatten_append, ih, flatten_split, List.flatten_cons]

/-- The boundaries after a boundary are those of the rest. -/
theorem IsBoundary.rest (ht : IsBoundary (t ++ u) t.length)
    (h : IsBoundary (t ++ u) (t.length + n)) : IsBoundary u n := by
  obtain ⟨i, hi⟩ := h
  have hlength : ((split t).take i).flatten.length + ((split t).drop i).flatten.length = t.length := by
    rw [← List.length_append, ← List.flatten_append, List.take_append_drop, flatten_split]
  rw [split_append_of_isBoundary ht, List.take_append, List.flatten_append, List.length_append] at hi
  by_cases hle : (split t).length ≤ i
  · rw [List.drop_eq_nil_of_le hle, List.flatten_nil, List.length_nil] at hlength
    exact ⟨i - (split t).length, by omega⟩
  · rw [show i - (split t).length = 0 by omega, List.take_zero, List.flatten_nil,
      List.length_nil] at hi
    refine ⟨0, ?_⟩
    rw [List.take_zero, List.flatten_nil, List.length_nil]
    omega

/-- An input may be split piece by piece exactly when every piece ends where a key ends. -/
theorem flatMap_split_eq_iff {texts : List Text} : texts.flatMap split = split texts.flatten ↔
    ∀ i, IsBoundary texts.flatten (texts.take i).flatten.length := by
  constructor
  · intro h i
    have hkeys : split texts.flatten
        = (texts.take i).flatMap split ++ (texts.drop i).flatMap split := by
      rw [← h, ← List.flatMap_append, List.take_append_drop]
    refine ⟨((texts.take i).flatMap split).length, ?_⟩
    rw [hkeys, List.take_left, flatten_flatMap_split]
  · intro h
    induction texts with
    | nil => rfl
    | cons t texts ih =>
        have ht : IsBoundary (t ++ texts.flatten) t.length := by simpa using h 1
        rw [List.flatMap_cons, List.flatten_cons, split_append_of_isBoundary ht, ih]
        intro i
        refine ht.rest ?_
        have hi := h (i + 1)
        rwa [List.take_succ_cons, List.flatten_cons, List.flatten_cons, List.length_append] at hi

end PipeShell.Keys
