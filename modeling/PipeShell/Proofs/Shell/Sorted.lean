import Mathlib.Data.Char
import Mathlib.Data.List.Lex
import Mathlib.Data.List.SplitBy
import Mathlib.Data.List.TakeWhile
import Mathlib.Data.Prod.Lex
import PipeShell.Proofs.Shell.Answers
import PipeShell.Proofs.Shell.Listing
import PipeShell.Proofs.Text.Within

/-!
# Sorted lines

`sort` shows the lines of its input in the order of their keys, and lines with one key as they came,
also when the order is reversed. Without duplicates it shows the first line of each key.
-/

namespace PipeShell

/-! ## The order of keys -/

namespace LineKey

variable {a b c : LineKey} {reverse : Bool}

/-- The key as a pair: the number decides before the text. -/
def pair (k : LineKey) : Int ×ₗ Text :=
  toLex (k.number, k.text)

theorem pair_injective : Function.Injective pair := by
  intro a b h
  obtain ⟨hnumber, htext⟩ := Prod.mk.inj (toLex_inj.mp h)
  exact congr (congrArg mk hnumber) htext

instance : LinearOrder LineKey :=
  LinearOrder.lift' pair pair_injective

theorem atMost_iff : a.atMost b = true ↔ a ≤ b := by
  have hpair : a ≤ b ↔ toLex (a.number, a.text) ≤ toLex (b.number, b.text) := Iff.rfl
  rw [hpair, Prod.Lex.toLex_le_toLex, atMost]
  simp only [Bool.or_eq_true, Bool.and_eq_true, decide_eq_true_eq, Bool.not_eq_true',
    ← Bool.not_eq_true, Text.before_iff, not_lt]

/-- The first key stands before the second one in ascending or descending order. -/
def Before (reverse : Bool) (a b : LineKey) : Prop :=
  if reverse then b < a else a < b

instance : Decidable (Before reverse a b) :=
  inferInstanceAs (Decidable (if reverse then b < a else a < b))

theorem not_before_self (reverse : Bool) (a : LineKey) : ¬Before reverse a a := by
  cases reverse <;> exact lt_irrefl a

theorem Before.asymm (h : Before reverse a b) : ¬Before reverse b a := by
  cases reverse <;> exact lt_asymm h

theorem before_of_ne (hne : a ≠ b) (h : ¬Before reverse b a) : Before reverse a b := by
  cases reverse
  · exact lt_of_le_of_ne (not_lt.mp h) hne
  · exact lt_of_le_of_ne (not_lt.mp h) hne.symm

theorem Before.of_not (hab : Before reverse a b) (hcb : ¬Before reverse c b) :
    Before reverse a c := by
  cases reverse
  · exact lt_of_lt_of_le hab (not_lt.mp hcb)
  · exact lt_of_le_of_lt (not_lt.mp hcb) hab

theorem eq_of_not_before (hab : ¬Before reverse a b) (hba : ¬Before reverse b a) : a = b :=
  not_imp_comm.mp (fun hne => before_of_ne hne hba) hab

end LineKey

/-! ## Stable sorting -/

section Sorting

open LineKey

variable {key : Text → LineKey} {reverse : Bool} {ls ms out : List Text}

/-- These are the lines of `ls` in the order of their keys; lines with equal keys stand as they
came. -/
structure StablySorted (key : Text → LineKey) (reverse : Bool) (ls out : List Text) : Prop where
  perm : out.Perm ls
  ordered : out.Pairwise fun a b => ¬Before reverse (key b) (key a)
  stable : ∀ k, out.filter (key · = k) = ls.filter (key · = k)

theorem sortLines_eq (key : Text → LineKey) (reverse : Bool) (ls : List Text) :
    sortLines key reverse ls
      = ls.mergeSort fun a b => !decide (Before reverse (key b) (key a)) := by
  unfold sortLines
  congr 1
  funext a b
  rw [Bool.eq_iff_iff, Bool.not_eq_true', decide_eq_false_iff_not]
  cases reverse <;> exact atMost_iff.trans not_lt.symm

theorem stablySorted_sortLines (key : Text → LineKey) (reverse : Bool) (ls : List Text) :
    StablySorted key reverse ls (sortLines key reverse ls) := by
  let le := fun a b => !decide (Before reverse (key b) (key a))
  have hle (a b : Text) : le a b = true ↔ ¬Before reverse (key b) (key a) := by simp [le]
  have htrans (a b c : Text) (hab : le a b = true) (hbc : le b c = true) : le a c = true := by
    rw [hle] at hab hbc ⊢
    exact fun hca => hbc (hca.of_not hab)
  have htotal (a b : Text) : (le a b || le b a) = true := by
    rw [Bool.or_eq_true, hle, hle, ← not_and_or]
    exact fun hboth => hboth.1.asymm hboth.2
  rw [sortLines_eq]
  have hperm : (ls.mergeSort le).Perm ls := List.mergeSort_perm ls le
  refine ⟨hperm, (List.pairwise_mergeSort htrans htotal ls).imp (hle _ _).mp, fun k => ?_⟩
  -- The lines with one key are in order, so the sort keeps them as a sublist.
  have hclass : (ls.filter (key · = k)).Pairwise fun a b => le a b = true := by
    refine List.pairwise_of_forall_mem_list fun a ha b hb => (hle a b).mpr ?_
    obtain ⟨ha, hb⟩ : key a = k ∧ key b = k := by simp_all
    rw [ha, hb]
    exact not_before_self reverse k
  have hsub : (ls.filter (key · = k)).Sublist ((ls.mergeSort le).filter (key · = k)) := by
    simpa using (List.sublist_mergeSort htrans htotal hclass List.filter_sublist).filter
      (key · = k)
  exact (hsub.eq_of_length (hperm.filter (key · = k)).length_eq.symm).symm

/-- Where no two lines share a key, the sorted lines only depend on which lines there are. -/
theorem sortLines_of_perm (hkey : Function.Injective key) (h : ms.Perm ls) :
    sortLines key reverse ms = sortLines key reverse ls := by
  have hms := stablySorted_sortLines key reverse ms
  have hls := stablySorted_sortLines key reverse ls
  refine List.Perm.eq_of_pairwise ?_ hms.ordered hls.ordered
    (hms.perm.trans (h.trans hls.perm.symm))
  exact fun a b _ _ hab hba => hkey (eq_of_not_before hba hab)

/-! ## Runs -/

section Runs

variable {κ : Type} [DecidableEq κ]

/-- The first lines of the runs of neighbours with equal keys. -/
def runHeads (key : Text → κ) (ls : List Text) : List Text :=
  (lineRuns key ls).filterMap List.head?

theorem key_of_mem_takeWhile {key : Text → κ} {k : κ} {line : Text}
    (h : line ∈ ls.takeWhile (key · = k)) : key line = k := by
  simpa using List.mem_takeWhile_imp h

theorem lineRuns_cons (key : Text → κ) (line : Text) (ls : List Text) :
    lineRuns key (line :: ls)
      = (line :: ls.takeWhile (key · = key line))
        :: lineRuns key (ls.dropWhile (key · = key line)) := by
  -- The first run is a chain of equal keys, and the line behind it has another key.
  have hrun : ∀ a ∈ line :: ls.takeWhile (key · = key line), key a = key line := by
    intro a ha
    rcases List.mem_cons.mp ha with rfl | ha
    · rfl
    · exact key_of_mem_takeWhile ha
  have hchain : (line :: ls.takeWhile (key · = key line)).IsChain
      fun a b => decide (key a = key b) :=
    (List.pairwise_of_forall_mem_list fun a ha b hb => by simp [hrun a ha, hrun b hb]).isChain
  have hcut : ∀ a ∈ (line :: ls.takeWhile (key · = key line)).getLast?,
      ∀ b ∈ (ls.dropWhile (key · = key line)).head?, decide (key a = key b) = false := by
    intro a ha b hb
    have hnot := List.head?_dropWhile_not (key · = key line) ls
    rw [Option.mem_def.mp hb] at hnot
    rw [hrun a (List.mem_of_getLast? ha)]
    simpa [eq_comm] using hnot
  calc lineRuns key (line :: ls)
      = lineRuns key ((line :: ls.takeWhile (key · = key line))
          ++ ls.dropWhile (key · = key line)) := by
        rw [List.cons_append, List.takeWhile_append_dropWhile]
    _ = _ := by
        rw [lineRuns, List.splitBy_append hcut,
          List.splitBy_of_isChain (List.cons_ne_nil _ _) hchain]
        rfl

theorem runHeads_cons (key : Text → κ) (line : Text) (ls : List Text) :
    runHeads key (line :: ls) = line :: runHeads key (ls.dropWhile (key · = key line)) := by
  rw [runHeads, lineRuns_cons]
  rfl

end Runs

/-- These are the first lines of `ls` with their keys, one for each key, in the order of keys. -/
structure FirstsSorted (key : Text → LineKey) (reverse : Bool) (ls out : List Text) : Prop where
  ordered : out.Pairwise fun a b => Before reverse (key a) (key b)
  complete : ∀ line ∈ ls, ∃ shown ∈ out, key shown = key line
  first : ∀ line ∈ out, ls.find? (key · = key line) = some line

/-- In lines in order, what follows a run comes strictly after it. -/
theorem before_of_mem_dropWhile {line a : Text}
    (h : (line :: ls).Pairwise fun a b => ¬Before reverse (key b) (key a))
    (ha : a ∈ ls.dropWhile (key · = key line)) : Before reverse (key line) (key a) := by
  obtain ⟨hline, hls⟩ := List.pairwise_cons.mp h
  have hsuffix := List.dropWhile_suffix (l := ls) (key · = key line)
  have hnot := List.head?_dropWhile_not (key · = key line) ls
  have hlater := hls.sublist hsuffix.sublist
  generalize ls.dropWhile (key · = key line) = later at ha hsuffix hnot hlater
  cases later with
  | nil => cases ha
  | cons next later =>
      have hne : key next ≠ key line := by simpa using hnot
      have hnext := before_of_ne hne.symm (hline next (hsuffix.mem List.mem_cons_self))
      rcases List.mem_cons.mp ha with rfl | ha
      · exact hnext
      · exact hnext.of_not ((List.pairwise_cons.mp hlater).1 a ha)

theorem firstsSorted_runHeads : ∀ {ls : List Text},
    (ls.Pairwise fun a b => ¬Before reverse (key b) (key a)) →
      FirstsSorted key reverse ls (runHeads key ls)
  | [], _ => ⟨.nil, nofun, nofun⟩
  | line :: ls, h => by
      -- The heads of the other runs are those of what follows the first run.
      have hlater {a : Text} (ha : a ∈ ls.dropWhile (key · = key line)) :
          Before reverse (key line) (key a) := before_of_mem_dropWhile h ha
      have ih : FirstsSorted key reverse (ls.dropWhile (key · = key line)) _ :=
        firstsSorted_runHeads ((List.pairwise_cons.mp h).2.sublist (List.dropWhile_sublist _))
      have hmem {a : Text} (ha : a ∈ runHeads key (ls.dropWhile (key · = key line))) :
          a ∈ ls.dropWhile (key · = key line) := List.mem_of_find?_eq_some (ih.first a ha)
      rw [runHeads_cons]
      refine ⟨List.pairwise_cons.mpr ⟨fun a ha => hlater (hmem ha), ih.ordered⟩, ?_, ?_⟩
      · intro a ha
        rcases List.mem_cons.mp ha with rfl | ha
        · exact ⟨a, List.mem_cons_self, rfl⟩
        · rw [← List.takeWhile_append_dropWhile (p := (key · = key line)) (l := ls)] at ha
          rcases List.mem_append.mp ha with ha | ha
          · exact ⟨line, List.mem_cons_self, (key_of_mem_takeWhile ha).symm⟩
          · obtain ⟨shown, hshown, hkey⟩ := ih.complete a ha
            exact ⟨shown, List.mem_cons_of_mem _ hshown, hkey⟩
      · intro a ha
        rcases List.mem_cons.mp ha with rfl | ha
        · exact List.find?_cons_of_pos (by simp)
        · have hne : key line ≠ key a := fun heq =>
            not_before_self reverse (key line) (heq ▸ hlater (hmem ha))
          have hrun : (ls.takeWhile (key · = key line)).find? (key · = key a) = none := by
            refine List.find?_eq_none.mpr fun b hb => ?_
            simpa [key_of_mem_takeWhile hb] using hne
          rw [List.find?_cons_of_neg (by simpa using hne),
            ← List.takeWhile_append_dropWhile (p := (key · = key line)) (l := ls),
            List.find?_append, hrun, Option.none_or, ih.first a ha]
  termination_by ls => ls.length
  decreasing_by
    exact Nat.lt_succ_of_le (List.dropWhile_sublist _).length_le

/-- The heads of the runs of sorted lines are the first lines that had their keys. -/
theorem StablySorted.firsts (h : StablySorted key reverse ls out) :
    FirstsSorted key reverse ls (runHeads key out) := by
  obtain ⟨hordered, hcomplete, hfirst⟩ := firstsSorted_runHeads h.ordered
  refine ⟨hordered, fun line hline => hcomplete line (h.perm.mem_iff.mpr hline), ?_⟩
  intro line hline
  rw [← List.head?_filter, ← h.stable (key line), List.head?_filter]
  exact hfirst line hline

end Sorting

/-! ## The command -/

namespace Args

/-- What the flags of a sort say that lines are sorted by in a locale. -/
def lineKey (args : Args) (collate : Collation) : Text → LineKey :=
  LineKey.ofLine collate (args.holds .numeric) (args.holds .ignoreCase)

theorem lineKey_injective {args : Args} {collate : Collation} (hcollate : Function.Injective collate)
    (h : args.holds .ignoreCase = false) : Function.Injective (args.lineKey collate) := by
  intro a b hab
  have htext : collate a = collate b := by
    simpa [lineKey, LineKey.ofLine, h] using congrArg LineKey.text hab
  exact hcollate htext

end Args

namespace Command

open PipeShell.Action

variable {collate : Collation} {args : Args} {content : Text} {piped : Option Text} {s : ShellState}

/-- The lines that `sort` shows of some lines. -/
def sortedLines (collate : Collation) (args : Args) (ls : List Text) : List Text :=
  let sorted := sortLines (args.lineKey collate) (args.holds .reverse) ls
  if args.holds .unique then runHeads (args.lineKey collate) sorted else sorted

/-- What `sort` makes of its input. -/
def sortInput (collate : Collation) (args : Args) : Option Text → Except Failure Result
  | none => .ok (usage "sort <path>")
  | some content =>
      if (Text.lines content).any (·.contains '\x00') then .error .nullInLine
      else .ok (.ok (Text.joinLines (sortedLines collate args (Text.lines content))))

theorem outcome_sort (collate : Collation) (args : Args) (piped : Option Text) (s : ShellState) :
    (sort collate args piped).outcome s
      = (s.inputText args piped >>= sortInput collate args, s) := by
  rw [sort, outcome_withInput]
  cases s.inputText args piped with
  | error f => rfl
  | ok content =>
      cases content with
      | none => rfl
      | some content =>
          simp only [Attempt.ok_bind, sortInput]
          split <;> rfl

theorem sortInput_of_not_mem (h : '\x00' ∉ content) :
    sortInput collate args (some content)
      = .ok (.ok (Text.joinLines (sortedLines collate args (Text.lines content)))) := by
  refine if_neg fun hany => ?_
  obtain ⟨line, hline, hnull⟩ := List.any_eq_true.mp hany
  exact h (Text.subset_of_mem_lines hline (by simpa using hnull))

/-- Descending, and without regard to case. -/
def descendingCaseless : Args :=
  [(.reverse, .flag true), (.ignoreCase, .flag true)]

end Command

end PipeShell
