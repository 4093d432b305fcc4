import Mathlib.Data.List.SplitBy
import PipeShell.Proofs.Text.Within
import PipeShell.Shell.Exec

/-!
# The characters of outputs

What commands show is made of the texts that they were given and of plain characters: no command
puts a carriage return into its output.
-/

namespace PipeShell

open Text

variable {A : Char → Prop} {t : Text} {ts : List Text}

/-! ## Numerals and quotes -/

theorem Text.not_mem_toDigits {base : Nat} (hb : 1 < base) (n : Nat) :
    '\r' ∉ Nat.toDigits base n := by
  induction n using Nat.strongRecOn with
  | ind n ih =>
      by_cases hlt : n < base
      · simp [Nat.toDigits_of_lt_base hlt]
      · have hsmaller : n / base < n := Nat.div_lt_self (by omega) hb
        simp [Nat.toDigits_of_base_le hb (Nat.le_of_not_lt hlt), ih _ hsmaller]

theorem Text.not_mem_codeEscape (c : Char) : '\r' ∉ codeEscape c := by
  have hhex (width n : Nat) : '\r' ∉ hex width n := by
    simp [hex, not_mem_toDigits, List.mem_replicate]
  unfold codeEscape
  repeat' split
  all_goals simp [hhex]

theorem Text.not_mem_escapeChar {quote c : Char} (hq : quote ≠ '\r') :
    '\r' ∉ escapeChar quote c := by
  unfold escapeChar
  by_cases hc : c = '\r'
  · subst hc
    simp [hq.symm]
  · repeat' split
    all_goals simp [Ne.symm hc, not_mem_codeEscape]

theorem Text.not_mem_quoted (t : Text) : '\r' ∉ quoted t := by
  have hq : quoteFor t ≠ '\r' := by
    unfold quoteFor
    split <;> decide
  have hbody : ∀ c, '\r' ∉ escapeChar (quoteFor t) c := fun c => not_mem_escapeChar hq
  simp [quoted, hq.symm, hbody]

namespace Command

theorem mem_ordered_childrenOf {directory : Text} {es : List StoreEntry} {e : StoreEntry}
    (h : e ∈ ordered (childrenOf directory es)) : e ∈ es :=
  (List.mem_filter.mp (List.mem_mergeSort.mp h)).1

theorem mem_of_mem_lineRuns {κ : Type} [DecidableEq κ] {key : Text → κ} {run : List Text}
    {line : Text} (hrun : run ∈ lineRuns key ts) (hline : line ∈ run) : line ∈ ts := by
  rw [← List.flatten_splitBy (fun a b => key a = key b) ts]
  exact List.mem_flatten_of_mem hrun hline

variable (hA : ∀ c, c ≠ '\r' → A c)
include hA

/-! ## Listings -/

theorem within_label {e : StoreEntry} (h : e.name.Within A) : (label e).Within A := by
  unfold label
  split
  · exact within_append.mpr ⟨h, within_of_not_mem hA (by decide)⟩
  · exact h

theorem within_display (h : t.Within A) : (Path.display t).Within A :=
  within_cons.mpr ⟨hA _ (by decide), h⟩

theorem within_renderList {long : Bool} {es : List StoreEntry}
    (h : ∀ e ∈ es, e.name.Within A ∧ e.path.Within A) : (renderList long es).Within A := by
  unfold renderList
  split
  · refine within_join (within_of_not_mem hA (by decide)) ?_
    intro line hline
    obtain ⟨e, he, rfl⟩ := List.mem_map.mp hline
    refine within_append.mpr ⟨?_, within_display hA (h e he).2⟩
    split <;> exact within_of_not_mem hA (by decide)
  · refine within_join (within_of_not_mem hA (by decide)) ?_
    intro name hname
    obtain ⟨e, he, rfl⟩ := List.mem_map.mp hname
    exact within_label hA (h e he).1

theorem within_treeLines {es : List StoreEntry} (h : ∀ e ∈ es, e.name.Within A) (fuel : Nat)
    (directory : Text) {indent : Text} (hindent : indent.Within A) :
    ∀ line ∈ treeLines es fuel directory indent, line.Within A := by
  induction fuel generalizing directory indent with
  | zero => simp [treeLines]
  | succ fuel ih =>
      intro line hline
      obtain ⟨⟨e, n⟩, he, hline⟩ := List.mem_flatMap.mp hline
      have hmem : e ∈ es := mem_ordered_childrenOf (List.fst_mem_of_mem_zipIdx he)
      rcases List.mem_cons.mp hline with rfl | hbelow
      · refine within_append.mpr ⟨within_append.mpr ⟨hindent, ?_⟩, within_label hA (h e hmem)⟩
        split <;> exact within_of_not_mem hA (by decide)
      · split at hbelow
        · refine ih e.path ?_ line hbelow
          refine within_append.mpr ⟨hindent, ?_⟩
          split <;> exact within_of_not_mem hA (by decide)
        · cases hbelow

/-! ## Texts -/

theorem within_concat (h : ∀ t ∈ ts, t.Within A) : (concat ts).Within A := by
  induction ts with
  | nil => exact within_nil
  | cons t ts ih =>
      cases ts with
      | nil => exact h t (by simp)
      | cons u us =>
          refine within_append.mpr ⟨within_append.mpr ⟨h t (by simp), ?_⟩, ih ?_⟩
          · split
            · exact within_nil
            · exact within_of_not_mem hA (by decide)
          · exact fun v hv => h v (by simp [hv])

theorem within_window {fromEnd : Bool} {count : Nat} (h : t.Within A) :
    (joinLines (window fromEnd count (lines t))).Within A := by
  refine within_joinLines hA ?_
  intro line hline
  refine h.subset (subset_of_mem_lines ?_)
  unfold window at hline
  split at hline
  · exact List.mem_of_mem_drop hline
  · exact List.mem_of_mem_take hline

theorem within_selectLines {selects : Text → Bool} {numbered : Bool} (h : t.Within A) :
    (joinLines (selectLines selects numbered t)).Within A := by
  refine within_joinLines hA ?_
  intro shown hshown
  obtain ⟨⟨line, n⟩, hline, hselect⟩ := List.mem_filterMap.mp hshown
  have hwithin : line.Within A :=
    h.subset (subset_of_mem_lines (List.fst_mem_of_mem_zipIdx hline))
  dsimp only at hselect
  split at hselect
  · cases hselect
    split
    · refine within_append.mpr ⟨within_append.mpr ⟨within_ofNat hA n, ?_⟩, hwithin⟩
      exact within_of_not_mem hA (by decide)
    · exact hwithin
  · cases hselect

theorem within_sorted {key : Text → LineKey} {reverse unique : Bool} (h : t.Within A) :
    (joinLines (if unique then (lineRuns key (sortLines key reverse (lines t))).filterMap List.head?
      else sortLines key reverse (lines t))).Within A := by
  have hsorted : ∀ line ∈ sortLines key reverse (lines t), line.Within A :=
    fun line hline => h.subset (subset_of_mem_lines (List.mem_mergeSort.mp hline))
  refine within_joinLines hA ?_
  intro line hline
  split at hline
  · obtain ⟨run, hrun, hhead⟩ := List.mem_filterMap.mp hline
    exact hsorted line (mem_of_mem_lineRuns hrun (List.mem_of_head? hhead))
  · exact hsorted line hline

theorem within_runs {κ : Type} [DecidableEq κ] {key : Text → κ} {counted : Bool}
    {keeps : List Text → Bool} (h : t.Within A) :
    (joinLines (((lineRuns key (lines t)).filter keeps).map (runLine counted))).Within A := by
  refine within_joinLines hA ?_
  intro shown hshown
  obtain ⟨run, hrun, rfl⟩ := List.mem_map.mp hshown
  have hhead : (run.headD []).Within A := by
    cases run with
    | nil => exact within_nil
    | cons line run =>
        have hmem : line ∈ lines t :=
          mem_of_mem_lineRuns (List.mem_filter.mp hrun).1 (List.mem_cons_self ..)
        exact h.subset (subset_of_mem_lines hmem)
  unfold runLine
  dsimp only
  split
  · refine within_append.mpr ⟨within_append.mpr ⟨within_padLeft hA _ (within_ofNat hA _), ?_⟩, hhead⟩
    exact within_of_not_mem hA (by decide)
  · exact hhead

theorem within_countsLine {selected : List (Key × Nat)} :
    Text.Within A ("  " ++ join [' '] (selected.map fun (_, n) => padLeft 6 (ofNat n))) := by
  refine within_append.mpr ⟨within_of_not_mem hA (by decide), ?_⟩
  refine within_join (within_of_not_mem hA (by decide)) ?_
  intro count hcount
  obtain ⟨⟨_, n⟩, _, rfl⟩ := List.mem_map.mp hcount
  exact within_padLeft hA _ (within_ofNat hA n)

theorem within_difference {sign : Text} (hsign : '\r' ∉ sign) (number : Nat) (h : t.Within A) :
    (sign ++ ofNat number ++ ": " ++ t).Within A :=
  within_append.mpr ⟨within_append.mpr ⟨within_append.mpr ⟨within_of_not_mem hA hsign,
    within_ofNat hA number⟩, within_of_not_mem hA (by decide)⟩, h⟩

theorem within_lineDifferences {number : Nat} {left right : List Text}
    (hleft : ∀ line ∈ left, line.Within A) (hright : ∀ line ∈ right, line.Within A) :
    ∀ line ∈ lineDifferences number left right, line.Within A := by
  fun_induction lineDifferences number left right with
  | case1 => simp
  | case2 number old left ih =>
      intro line hline
      rcases List.mem_cons.mp hline with rfl | hline
      · exact within_difference hA (by decide) number (hleft old (by simp))
      · exact ih (fun line h => hleft line (by simp [h])) (by simp) line hline
  | case3 number new right ih =>
      intro line hline
      rcases List.mem_cons.mp hline with rfl | hline
      · exact within_difference hA (by decide) number (hright new (by simp))
      · exact ih (by simp) (fun line h => hright line (by simp [h])) line hline
  | case4 number old left right ih =>
      exact ih (fun line h => hleft line (by simp [h])) fun line h => hright line (by simp [h])
  | case5 number old left new right hne ih =>
      intro line hline
      rcases List.mem_cons.mp hline with rfl | hline
      · exact within_difference hA (by decide) number (hleft old (by simp))
      rcases List.mem_cons.mp hline with rfl | hline
      · exact within_difference hA (by decide) number (hright new (by simp))
      · exact ih (fun line h => hleft line (by simp [h])) (fun line h => hright line (by simp [h]))
          line hline

theorem within_output {v : Value} (h : ∀ u, v = .text u → u.Within A) : v.output.Within A := by
  cases v with
  | text u => exact h u rfl
  | number n => exact within_ofInt hA n
  | flag b => cases b <;> exact within_of_not_mem hA (by decide)
  | texts ts =>
      refine within_append.mpr ⟨within_append.mpr ⟨?_, within_join ?_ ?_⟩, ?_⟩
      · exact within_of_not_mem hA (by decide)
      · exact within_of_not_mem hA (by decide)
      · intro u hu
        obtain ⟨u, -, rfl⟩ := List.mem_map.mp hu
        exact within_of_not_mem hA (not_mem_quoted u)
      · exact within_of_not_mem hA (by decide)

/-! ## Numbers -/

theorem within_fixed (places : Nat) (r : Number.Rounded) : (Number.fixed places r).Within A := by
  refine within_append.mpr ⟨within_append.mpr ⟨within_append.mpr ⟨within_ofNat hA _, ?_⟩, ?_⟩,
    within_ofNat hA _⟩
  · exact within_of_not_mem hA (by decide)
  · intro c hc
    rw [List.eq_of_mem_replicate hc]
    exact hA _ (by decide)

theorem within_megabytes {bytes : Nat} (h : megabytes bytes = .ok t) : t.Within A := by
  simp only [megabytes] at h
  split at h
  · cases h
  · cases h
    exact within_fixed hA 2 _

/-! ## Help -/

theorem within_word (v : Verb) : v.word.Within A :=
  within_of_not_mem hA (by cases v <;> decide)

theorem within_usage (v : Verb) : v.usage.Within A :=
  within_of_not_mem hA (by cases v <;> decide)

theorem within_description (v : Verb) : v.description.Within A :=
  within_of_not_mem hA (by cases v <;> decide)

theorem within_aliasesOf (v : Verb) : ∀ word ∈ Verb.aliasesOf v, word.Within A := by
  intro word hword
  have hreturn : ∀ entry ∈ Verb.aliases, '\r' ∉ entry.1 := by decide
  obtain ⟨⟨name, target⟩, hentry, hname⟩ := List.mem_filterMap.mp hword
  dsimp only at hname
  split at hname
  · cases hname
    exact within_of_not_mem hA (hreturn _ hentry)
  · cases hname

theorem within_topicLines (v : Verb) : (join ['\n'] (topicLines v)).Within A := by
  have haliases : (join ", " (Verb.aliasesOf v)).Within A :=
    within_join (within_of_not_mem hA (by decide)) (within_aliasesOf hA v)
  refine within_join (within_of_not_mem hA (by decide)) ?_
  simp only [topicLines, List.forall_mem_cons, List.forall_mem_append]
  refine ⟨?_, ?_, ?_, ?_⟩
  · exact within_append.mpr ⟨within_append.mpr ⟨within_word hA v,
      within_of_not_mem hA (by decide)⟩, within_description hA v⟩
  · exact within_append.mpr ⟨within_of_not_mem hA (by decide), within_usage hA v⟩
  · split
    · simp
    · rw [List.forall_mem_singleton]
      exact within_append.mpr ⟨within_of_not_mem hA (by decide), haliases⟩
  · split
    · rw [List.forall_mem_singleton]
      exact within_of_not_mem hA (by decide)
    · simp

theorem within_overviewLine (v : Verb) : (overviewLine v).Within A := by
  have haliases : (join ", " (Verb.aliasesOf v)).Within A :=
    within_join (within_of_not_mem hA (by decide)) (within_aliasesOf hA v)
  have husage : (padRight 24 v.usage).Within A := by
    refine within_append.mpr ⟨within_usage hA v, fun c hc => ?_⟩
    rw [List.eq_of_mem_replicate hc]
    exact hA _ (by decide)
  simp only [overviewLine, within_append]
  refine ⟨⟨⟨⟨within_of_not_mem hA (by decide), husage⟩, within_of_not_mem hA (by decide)⟩,
    within_description hA v⟩, ?_⟩
  split
  · simp
  · simp only [within_append]
    exact ⟨⟨within_of_not_mem hA (by decide), haliases⟩, within_of_not_mem hA (by decide)⟩

theorem within_overviewLines (known : List Verb) :
    (join ['\n'] (overviewLines known)).Within A := by
  refine within_join (within_of_not_mem hA (by decide)) ?_
  simp only [overviewLines, List.forall_mem_cons, List.forall_mem_append, List.forall_mem_map]
  refine ⟨within_of_not_mem hA (by decide), within_nil, fun v _ => within_overviewLine hA v,
    within_nil, within_of_not_mem hA (by decide), by simp⟩

end Command

end PipeShell
