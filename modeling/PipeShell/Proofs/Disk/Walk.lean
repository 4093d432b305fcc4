import Mathlib.Data.List.Basic
import PipeShell.Proofs.Folder.Alter
import PipeShell.Proofs.Path.Resolve
import PipeShell.Proofs.Store.Action
import PipeShell.Disk.TextFile

/-!
# Walks along a disk

A walk that arrives has gone through directories up to its last step, and it ends at the path that its
segments lead to. So does a place for a new entry, whose directory exists.
-/

namespace PipeShell.Disk

open PipeShell.Path

variable {d : Disk} {walked front rest segments p : List Text} {name : Text}

/-- The first step of a walk that arrives: it leads back, into a directory, or it is the last one. -/
theorem walk_cons_eq_ok (h : d.walk walked (name :: rest) = .ok p) :
    name = ['.', '.'] ∧ d.walk walked.tail rest = .ok p
      ∨ name ≠ ['.', '.'] ∧ d.isTooLong name = false
        ∧ ((∃ inside, d.tree.node? (name :: walked).reverse = some (.folder inside))
            ∧ d.walk (name :: walked) rest = .ok p
          ∨ rest = [] ∧ p = (name :: walked).reverse) := by
  rw [Disk.walk] at h
  split at h
  · rename_i hback
    exact .inl ⟨hback, h⟩
  · rename_i hforward
    split at h
    · cases h
    · rename_i hshort
      refine .inr ⟨hforward, by simpa using hshort, ?_⟩
      split at h
      · cases h
      · rename_i inside hn
        exact .inl ⟨⟨inside, hn⟩, h⟩
      · split at h
        · rename_i hlast
          exact .inr ⟨hlast, (Except.ok.inj h).symm⟩
        · cases h

theorem walk_eq_ok (h : d.walk walked segments = .ok p) :
    p = (segments.foldl step walked).reverse := by
  induction segments generalizing walked with
  | nil =>
      cases h
      rfl
  | cons name rest ih =>
      rw [List.foldl_cons, step]
      obtain ⟨hback, h⟩ | ⟨hforward, -, ⟨-, h⟩ | ⟨rfl, rfl⟩⟩ := walk_cons_eq_ok h
      · rw [if_pos hback]
        exact ih h
      · rw [if_neg hforward]
        exact ih h
      · rw [if_neg hforward]
        rfl

theorem walk_concat (hdir : d.tree.binding? walked.reverse = some .directory)
    (h : d.walk walked (front ++ [name]) = .ok p) :
    ∃ above inside, d.walk walked front = .ok above ∧ d.tree.node? above = some (.folder inside)
      ∧ (name = ['.', '.'] ∧ p = above.dropLast
        ∨ name ≠ ['.', '.'] ∧ d.isTooLong name = false ∧ p = above ++ [name]) := by
  induction front generalizing walked with
  | nil =>
      obtain ⟨inside, hn⟩ := Folder.binding?_eq_directory.mp hdir
      refine ⟨walked.reverse, inside, rfl, hn, ?_⟩
      obtain ⟨hback, h⟩ | ⟨hforward, hshort, ⟨-, h⟩ | ⟨-, rfl⟩⟩ := walk_cons_eq_ok h
      · cases h
        exact .inl ⟨hback, List.dropLast_reverse.symm⟩
      · cases h
        exact .inr ⟨hforward, hshort, List.reverse_cons⟩
      · exact .inr ⟨hforward, hshort, List.reverse_cons⟩
  | cons s front ih =>
      rw [Disk.walk]
      obtain ⟨hback, h⟩ | ⟨hforward, hshort, ⟨⟨inside, hn⟩, h⟩ | ⟨hnil, -⟩⟩ := walk_cons_eq_ok h
      · rw [if_pos hback]
        refine ih ?_ h
        rw [← List.dropLast_reverse]
        exact Folder.directory_above hdir (List.dropLast_prefix _)
      · rw [if_neg hforward, if_neg (by simp [hshort]), hn]
        exact ih (Folder.binding?_eq_directory.mpr ⟨inside, hn⟩) h
      · simp at hnil

/-- A walk that steps back at its end leads to a directory. -/
theorem walk_back (hback : segments.getLast? = some ['.', '.'])
    (h : d.walk [] segments = .ok p) : d.tree.binding? p = some .directory := by
  obtain ⟨front, rfl⟩ := List.getLast?_eq_some_iff.mp hback
  obtain ⟨above, inside, -, hn, ⟨-, rfl⟩ | ⟨hforward, -⟩⟩ := walk_concat rfl h
  · have hdir := Folder.binding?_eq_directory.mpr ⟨inside, hn⟩
    exact Folder.directory_above hdir (List.dropLast_prefix _)
  · exact absurd rfl hforward

theorem place_eq_ok (h : d.place segments = .ok p) :
    p = Path.walk segments ∧ d.tree.binding? p.dropLast = some .directory := by
  rcases List.eq_nil_or_concat' segments with rfl | ⟨above, name, rfl⟩
  · cases h
    exact ⟨rfl, rfl⟩
  · simp only [place, List.getLast?_concat, List.dropLast_concat] at h
    cases hw : d.walk [] above with
    | error e => simp [hw] at h
    | ok path =>
        obtain rfl : path = Path.walk above := walk_eq_ok hw
        have hpath := Path.walk_concat above name
        simp only [hw, Attempt.ok_bind] at h
        split at h
        · rename_i inside hn
          have hdir := Folder.binding?_eq_directory.mpr ⟨inside, hn⟩
          by_cases hback : name = ['.', '.']
          · rw [if_pos hback] at h hpath
            cases h
            refine ⟨hpath.symm, Folder.directory_above hdir ?_⟩
            exact (List.dropLast_prefix _).trans (List.dropLast_prefix _)
          · rw [if_neg hback] at h hpath
            split at h
            · cases h
            · cases h
              exact ⟨hpath.symm, by simpa using hdir⟩
        · cases h
        · cases h

end PipeShell.Disk
