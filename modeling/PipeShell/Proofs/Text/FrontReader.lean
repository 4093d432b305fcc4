import Mathlib.Data.List.Basic
import PipeShell.Proofs.Text.Pieces

/-!
# Reading off the front of texts

A reader takes something off the front of a text. Items that can be read back one by one can be read
back from a row, with separators between them and a mark behind the last one.
-/

namespace PipeShell

/-- Reads something off the front of a text: what it is, and the text behind it. -/
abbrev FrontReader (α : Type) := Text → Option (α × Text)

namespace FrontReader

variable {α : Type}

/-- The reader reads `a` back from what is written for it, if a text that `follows` allows comes
behind. -/
def ReadsBack (read : FrontReader α) (follows : Text → Prop) (write : α → Text) (a : α) : Prop :=
  ∀ rest, follows rest → read (write a ++ rest) = some (a, rest)

/-- What stands behind a separator. -/
def behind (sep : Text) (item : FrontReader α) : FrontReader α :=
  fun t => (t.dropPrefix? sep).bind item

/-- At most `fuel` items in a row, and the text behind them. -/
def manyWithin (item : FrontReader α) : Nat → Text → List α × Text
  | 0, t => ([], t)
  | fuel + 1, t =>
      match item t with
      | none => ([], t)
      | some (a, rest) => (manyWithin item fuel rest).map (a :: ·) id

/-- All items in a row, and the text behind them. -/
def many (item : FrontReader α) (t : Text) : List α × Text :=
  manyWithin item t.length t

/-- At least one item, with separators between them. -/
def row (sep : Text) (item : FrontReader α) : FrontReader (List α) := fun t => do
  let (a, t) ← item t
  return (many (behind sep item) t).map (a :: ·) id

/-- Items with separators between them, up to the mark that closes their row. -/
def closedRow (sep : Text) (close : Char) (item : FrontReader α) : FrontReader (List α) := fun t =>
  match t.dropPrefix? [close] with
  | some rest => some ([], rest)
  | none => do
      let (as, t) ← row sep item t
      let rest ← t.dropPrefix? [close]
      return (as, rest)

/-- The text up to the first such mark, which is left out. -/
def upTo (mark : Char) : FrontReader Text :=
  fun t => ((t.dropWhile (· ≠ mark)).dropPrefix? [mark]).map (t.takeWhile (· ≠ mark), ·)

variable {item : FrontReader α} {write : α → Text} {follows : Text → Prop} {sep stop : Text}
  {as : List α} {n : Nat}

/-! ## Many items -/

theorem manyWithin_flatMap (hread : ∀ a ∈ as, item.ReadsBack follows write a)
    (hnext : ∀ a ∈ as, ∀ rest, follows (write a ++ rest)) (hstop : follows stop)
    (hend : item stop = none) (hfuel : as.length ≤ n) :
    manyWithin item n (as.flatMap write ++ stop) = (as, stop) := by
  induction as generalizing n with
  | nil =>
      cases n with
      | zero => rfl
      | succ n => simp [manyWithin, hend]
  | cons a as ih =>
      obtain ⟨ha, hread⟩ := List.forall_mem_cons.mp hread
      obtain ⟨-, hnext⟩ := List.forall_mem_cons.mp hnext
      have hfollows : follows (as.flatMap write ++ stop) := by
        cases as with
        | nil => exact hstop
        | cons b bs =>
            rw [List.flatMap_cons, List.append_assoc]
            exact hnext b (by simp) _
      cases n with
      | zero => simp at hfuel
      | succ n =>
          rw [List.flatMap_cons, List.append_assoc, manyWithin, ha _ hfollows]
          simp [ih hread hnext (by simpa using hfuel)]

/-- Nothing is written for no item, since no item can be read at the end. -/
theorem write_ne_nil {a : α} (hread : item.ReadsBack follows write a) (hstop : follows stop)
    (hend : item stop = none) : write a ≠ [] := by
  intro hnil
  have h := hread stop hstop
  rw [hnil, List.nil_append, hend] at h
  cases h

theorem length_le_length_flatMap (h : ∀ a ∈ as, write a ≠ []) :
    as.length ≤ (as.flatMap write).length := by
  induction as with
  | nil => simp
  | cons a as ih =>
      obtain ⟨ha, has⟩ := List.forall_mem_cons.mp h
      have hpos := List.length_pos_of_ne_nil ha
      have hrest := ih has
      rw [List.flatMap_cons, List.length_append, List.length_cons]
      omega

/-- Items that stand next to each other are read back up to a text that is no item. -/
theorem many_flatMap (hread : ∀ a ∈ as, item.ReadsBack follows write a)
    (hnext : ∀ a ∈ as, ∀ rest, follows (write a ++ rest)) (hstop : follows stop)
    (hend : item stop = none) : many item (as.flatMap write ++ stop) = (as, stop) := by
  refine manyWithin_flatMap hread hnext hstop hend ?_
  have hwritten : as.length ≤ (as.flatMap write).length :=
    length_le_length_flatMap fun a ha => write_ne_nil (hread a ha) hstop hend
  rw [List.length_append]
  omega

/-! ## Marks -/

theorem dropPrefix?_append (sep rest : Text) : (sep ++ rest).dropPrefix? sep = some rest :=
  List.dropPrefix?_append_of_beq rest (beq_self_eq_true sep)

theorem upTo_append {mark : Char} {t : Text} (h : mark ∉ t) (rest : Text) :
    upTo mark (t ++ mark :: rest) = some (t, rest) := by
  have hbefore : ∀ c ∈ t, decide (c ≠ mark) = true := by
    intro c hc
    simpa using ne_of_mem_of_not_mem hc h
  rw [upTo, List.dropWhile_append_of_pos hbefore, List.takeWhile_append_of_pos hbefore]
  simp [List.dropPrefix?]

/-! ## Rows -/

theorem join_cons_eq (sep t : Text) (ts : List Text) :
    Text.join sep (t :: ts) = t ++ ts.flatMap (sep ++ ·) := by
  induction ts generalizing t with
  | nil => simp
  | cons u us ih => rw [Text.join_cons sep t (by simp), ih, List.flatMap_cons]; simp

/-- A row of items is read back up to a text that does not go on with a separator. -/
theorem row_join (hread : ∀ a ∈ as, item.ReadsBack follows write a)
    (hsep : ∀ rest, follows (sep ++ rest)) (hstop : follows stop)
    (hend : stop.dropPrefix? sep = none) (hne : as ≠ []) :
    row sep item (Text.join sep (as.map write) ++ stop) = some (as, stop) := by
  obtain ⟨a, as, rfl⟩ := List.exists_cons_of_ne_nil hne
  obtain ⟨ha, hread⟩ := List.forall_mem_cons.mp hread
  have hmore : many (behind sep item) (as.flatMap (sep ++ write ·) ++ stop) = (as, stop) := by
    refine many_flatMap (fun b hb rest (hrest : follows rest) => ?_) (fun b _ rest => ?_) hstop ?_
    · rw [behind, List.append_assoc, dropPrefix?_append]
      exact hread b hb rest hrest
    · rw [List.append_assoc]
      exact hsep _
    · rw [behind, hend]
      rfl
  have hfollows : follows (as.flatMap (sep ++ write ·) ++ stop) := by
    cases as with
    | nil => exact hstop
    | cons b bs =>
        rw [List.flatMap_cons, List.append_assoc, List.append_assoc]
        exact hsep _
  rw [List.map_cons, join_cons_eq, List.flatMap_map, List.append_assoc, row, ha _ hfollows]
  simp [hmore]

/-- A row of items is read back with the mark that closes it, whatever comes behind. -/
theorem closedRow_join {close : Char} (hread : ∀ a ∈ as, item.ReadsBack follows write a)
    (hsep : ∀ rest, follows (sep ++ rest)) (hclose : ∀ rest, follows (close :: rest))
    (hne : sep ≠ []) (hmark : sep.head? ≠ some close)
    (hopen : ∀ a ∈ as, write a ≠ [] ∧ (write a).head? ≠ some close) (rest : Text) :
    closedRow sep close item (Text.join sep (as.map write) ++ close :: rest) = some (as, rest) := by
  obtain ⟨s, sep', rfl⟩ := List.exists_cons_of_ne_nil hne
  have hs : close ≠ s := by
    rintro rfl
    exact hmark rfl
  by_cases has : as = []
  · subst has
    simp [closedRow, Text.join, List.dropPrefix?]
  · obtain ⟨a, bs, rfl⟩ := List.exists_cons_of_ne_nil has
    obtain ⟨hwritten, hhead⟩ := hopen a (by simp)
    obtain ⟨c, w, hw⟩ := List.exists_cons_of_ne_nil hwritten
    have hc : c ≠ close := by
      rintro rfl
      exact hhead (by rw [hw]; rfl)
    -- No item starts like the closing mark, so a row that is not empty is read as one.
    have hstart : (Text.join (s :: sep') ((a :: bs).map write) ++ close :: rest).dropPrefix? [close]
        = none := by
      rw [List.map_cons, join_cons_eq, hw]
      simp [List.dropPrefix?, hc]
    have hrow := row_join hread hsep (hclose rest) (by simp [List.dropPrefix?, hs]) has
    simp only [closedRow, hstart, hrow]
    simp [List.dropPrefix?]

end FrontReader

end PipeShell
