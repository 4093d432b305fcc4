import Mathlib.Algebra.Ring.Nat
import PipeShell.Proofs.Folder.Entries

/-!
# Sums over folders

A change at a path replaces in the sum what the path had by what it has afterwards. Directories add
nothing of their own.
-/

namespace PipeShell

variable {α : Type} {measure : α → Nat}

/-- The sum of a measure over the contents of all files of a node. -/
def Node.sum (measure : α → Nat) : Node α → Nat
  | .file content => measure content
  | .folder inside => inside.sum measure

@[simp] theorem Node.sum_file (content : α) : (Node.file content).sum measure = measure content := rfl

@[simp] theorem Node.sum_folder (inside : Folder α) :
    (Node.folder inside).sum measure = inside.sum measure := rfl

namespace Folder

/-- The contents of all files, in the order of the entries. -/
def contents (f : Folder α) : List α :=
  f.entries.filterMap Prod.snd

@[simp] theorem sum_empty : (empty : Folder α).sum measure = 0 := rfl

@[simp] theorem sum_add (name : Text) (n : Node α) (rest : Folder α) :
    (add name n rest).sum measure = n.sum measure + rest.sum measure := by
  cases n <;> rfl

variable (measure)

theorem sum_alterChild (name : Text) (change : Option (Node α) → Option (Node α)) (f : Folder α) :
    (f.alterChild name change).sum measure + (f.child? name).elim 0 (Node.sum measure)
      = f.sum measure + (change (f.child? name)).elim 0 (Node.sum measure) := by
  induction f using entryInduction with
  | empty =>
      simp only [alterChild, child?_empty]
      cases change none <;> simp
  | add m old rest ih =>
      rw [alterChild_add, child?_add]
      by_cases hm : m = name
      · simp only [if_pos hm]
        cases change (some old) <;> simp <;> omega
      · simp only [if_neg hm, sum_add]
        omega

/-- A change below an existing directory replaces one part of the sum. -/
theorem sum_alter {path : List Text} {f : Folder α} (hne : path ≠ [])
    (hd : f.binding? path.dropLast = some .directory)
    (change : Option (Node α) → Option (Node α)) :
    (f.alter path change).sum measure + (f.node? path).elim 0 (Node.sum measure)
      = f.sum measure + (change (f.node? path)).elim 0 (Node.sum measure) := by
  induction path generalizing f with
  | nil => exact absurd rfl hne
  | cons name path ih =>
      cases path with
      | nil =>
          rw [node?_singleton]
          exact sum_alterChild measure name change f
      | cons next path =>
          obtain ⟨inside, hchild, hin⟩ := exists_folder_of_directory hd
          -- Only the folder on the way has another sum, which the induction is about.
          have hone : (f.alter (name :: next :: path) change).sum measure
                + (f.child? name).elim 0 (Node.sum measure)
              = f.sum measure + (inside.alter (next :: path) change).sum measure :=
            (sum_alterChild measure name _ f).trans (by rw [hchild]; rfl)
          have hn : f.node? (name :: next :: path) = inside.node? (next :: path) := by
            rw [node?_cons, hchild]
            rfl
          have ih := ih (by simp) hin
          rw [hchild, Option.elim_some, Node.sum_folder] at hone
          rw [hn]
          omega

theorem sum_ensure (path : List Text) (f : Folder α) :
    (f.ensure path).sum measure = f.sum measure := by
  induction path generalizing f with
  | nil => rfl
  | cons name path ih =>
      rw [ensure, ← Nat.add_right_cancel_iff, sum_alterChild]
      cases hc : f.child? name with
      | none => simp [ih]
      | some n => cases n <;> simp [ih]

/-- Writing a file replaces the content that its path had. -/
theorem sum_write {path : List Text} {f : Folder α} (hne : path ≠ [])
    (hd : f.binding? path.dropLast = some .directory) (hf : f.binding? path ≠ some .directory)
    (content : α) :
    (f.write path content).sum measure + ((f.binding? path).bind Binding.content?).elim 0 measure
      = f.sum measure + measure content := by
  have hsum := sum_alter measure hne hd fun _ => some (.file content)
  rw [binding?] at hf ⊢
  cases hn : f.node? path with
  | none => simpa [hn, write] using hsum
  | some n =>
      rw [hn] at hsum hf
      cases n with
      | file former => exact hsum
      | folder inside => exact absurd rfl hf

theorem sum_erase_le {path : List Text} {f : Folder α} (hne : path ≠ [])
    (hd : f.binding? path.dropLast = some .directory) :
    (f.erase path).sum measure ≤ f.sum measure := by
  have hsum := sum_alter measure hne hd fun _ => none
  rw [Option.elim_none] at hsum
  exact Nat.le.intro hsum

theorem sum_eq_contents (f : Folder α) : f.sum measure = (f.contents.map measure).sum := by
  have hall (above : List Text) :
      f.sum measure = (((f.entriesUnder above).filterMap Prod.snd).map measure).sum := by
    induction f generalizing above with
    | empty => rfl
    | file name content rest ih => simp [sum, entriesUnder, ih above]
    | folder name inside rest ihi ih =>
        simp [sum, entriesUnder, ih above, ihi (above ++ [name])]
  exact hall []

end Folder

end PipeShell
