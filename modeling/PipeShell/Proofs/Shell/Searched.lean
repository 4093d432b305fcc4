import PipeShell.Proofs.Args.SearchUnits
import PipeShell.Proofs.Number.Front
import PipeShell.Proofs.Shell.Answers

/-!
# Lines that match and lines that do not

A search and the search for the other lines share the lines of a text out between them. In a file
each line keeps its number, so that the two outputs can be read back and merged to the whole file.
-/

namespace PipeShell

open PipeShell.Action

namespace Command

variable {ls : List Text} {rows shown hidden : List (Text × Nat)} {test : Text → Bool}

/-! ## Reading numbered lines back -/

/-- What a numbered line says: the digits in front are the number, and one character behind them the
line begins. -/
def readNumbered (t : Text) : Text × Nat :=
  let (number, rest) := Text.numberInFront t
  (rest.drop 1, number)

def readAllNumbered (out : Text) : List (Text × Nat) :=
  (Text.lines out).map readNumbered

theorem readNumbered_numberedLine (row : Text × Nat) : readNumbered (numberedLine row) = row := by
  have hcolon : numberedLine row = Text.ofNat row.2 ++ ':' :: row.1 := List.append_assoc _ _ _
  rw [readNumbered, hcolon, Text.numberInFront_ofNat_append row.2 (by simp)]
  rfl

theorem newline_not_mem_numberedLine {row : Text × Nat} (h : '\n' ∉ row.1) :
    '\n' ∉ numberedLine row := by
  intro hmem
  simp only [numberedLine, List.append_assoc, List.mem_append] at hmem
  rcases hmem with hdigit | hcolon | hline
  · exact absurd (Text.isDigit_of_mem_ofNat hdigit) (by decide)
  · exact absurd hcolon (by decide)
  · exact h hline

/-- Numbered lines are never blank, so that none of them gets lost at the end of an output. -/
theorem lines_joinLines_numbered (h : ∀ row ∈ rows, '\n' ∉ row.1) :
    Text.lines (Text.joinLines (rows.map numberedLine)) = rows.map numberedLine := by
  refine Text.lines_joinLines_of_last (fun line hline => ?_) fun hlast => ?_
  · obtain ⟨row, hrow, rfl⟩ := List.mem_map.mp hline
    exact newline_not_mem_numberedLine (h row hrow)
  · obtain ⟨row, -, hrow⟩ := List.mem_map.mp (List.mem_of_getLast? hlast)
    simp [numberedLine] at hrow

theorem readAllNumbered_joinLines (h : ∀ row ∈ rows, '\n' ∉ row.1) :
    readAllNumbered (Text.joinLines (rows.map numberedLine)) = rows := by
  rw [readAllNumbered, lines_joinLines_numbered h, List.map_map]
  exact (List.map_congr_left fun row _ => readNumbered_numberedLine row).trans (List.map_id rows)

/-! ## Sharing lines out -/

/-- The rows of two lists, merged by their numbers. -/
def mergeByNumber (shown hidden : List (Text × Nat)) : List (Text × Nat) :=
  shown.merge hidden fun a b => a.2 ≤ b.2

/-- Two lists of lines with their numbers share the lines out between them: each number is in one of
the lists, with its own line, and not in the other one. -/
structure SharesOut (ls : List Text) (shown hidden : List (Text × Nat)) : Prop where
  increasing : shown.Pairwise (·.2 < ·.2) ∧ hidden.Pairwise (·.2 < ·.2)
  own : ∀ row ∈ shown ++ hidden, 1 ≤ row.2 ∧ ls[row.2 - 1]? = some row.1
  once : ∀ n, 1 ≤ n → n ≤ ls.length → Xor (n ∈ shown.map Prod.snd) (n ∈ hidden.map Prod.snd)
  merged : (mergeByNumber shown hidden).map Prod.fst = ls

/-- The lines that a test selects, with their numbers. -/
def selected (test : Text → Bool) (ls : List Text) : List (Text × Nat) :=
  (ls.zipIdx 1).filter fun row => test row.1

theorem pairwise_zipIdx (ls : List Text) : (ls.zipIdx 1).Pairwise (·.2 < ·.2) := by
  have hnumbers : ((ls.zipIdx 1).map Prod.snd).Pairwise (· < ·) := by
    rw [List.zipIdx_map_snd]
    exact List.pairwise_lt_range'
  exact List.pairwise_map.mp hnumbers

theorem mem_zipIdx_iff {row : Text × Nat} :
    row ∈ ls.zipIdx 1 ↔ 1 ≤ row.2 ∧ ls[row.2 - 1]? = some row.1 :=
  List.mem_zipIdx_iff_le_and_getElem?_sub

theorem mem_selected {row : Text × Nat} :
    row ∈ selected test ls ↔ (1 ≤ row.2 ∧ ls[row.2 - 1]? = some row.1) ∧ test row.1 = true := by
  rw [selected, List.mem_filter, mem_zipIdx_iff]

theorem map_fst_selected (test : Text → Bool) (ls : List Text) :
    (selected test ls).map Prod.fst = ls.filter test := by
  have hlines := List.zipIdx_map_fst 1 ls
  conv_rhs => rw [← hlines, List.filter_map]
  rfl

theorem mem_snd_selected {n : Nat} {line : Text} (hn : 1 ≤ n) (hline : ls[n - 1]? = some line) :
    n ∈ (selected test ls).map Prod.snd ↔ test line = true := by
  constructor
  · intro h
    obtain ⟨row, hrow, rfl⟩ := List.mem_map.mp h
    obtain ⟨⟨-, hown⟩, htest⟩ := mem_selected.mp hrow
    obtain rfl : line = row.1 := Option.some.inj (hline.symm.trans hown)
    exact htest
  · exact fun h => List.mem_map.mpr ⟨(line, n), mem_selected.mpr ⟨⟨hn, hline⟩, h⟩, rfl⟩

/-- Merging by number puts the selected lines and the other ones back into their order. -/
theorem mergeByNumber_selected (test : Text → Bool) (ls : List Text) :
    mergeByNumber (selected test ls) (selected (!test ·) ls) = ls.zipIdx 1 := by
  have hincreasing (test : Text → Bool) :
      (selected test ls).Pairwise fun a b => decide (a.2 ≤ b.2) = true :=
    ((pairwise_zipIdx ls).filter _).imp fun h => decide_eq_true (Nat.le_of_lt h)
  have hperm : (mergeByNumber (selected test ls) (selected (!test ·) ls)).Perm (ls.zipIdx 1) :=
    (List.merge_perm_append _).trans (List.filter_append_perm _ _)
  refine hperm.eq_of_pairwise (fun a b ha hb hab hba => ?_)
    (List.pairwise_merge (by grind) (by grind) _ _ (hincreasing _) (hincreasing _))
    ((pairwise_zipIdx ls).imp fun h => decide_eq_true (Nat.le_of_lt h))
  -- Rows of one number are the same row, since each number has its own line.
  have hnumber : a.2 = b.2 := Nat.le_antisymm (of_decide_eq_true hab) (of_decide_eq_true hba)
  have hline := (mem_zipIdx_iff.mp (hperm.mem_iff.mp ha)).2
  rw [hnumber, (mem_zipIdx_iff.mp hb).2] at hline
  exact Prod.ext (Option.some.inj hline).symm hnumber

theorem sharesOut_selected (test : Text → Bool) (ls : List Text) :
    SharesOut ls (selected test ls) (selected (!test ·) ls) := by
  refine ⟨⟨(pairwise_zipIdx ls).filter _, (pairwise_zipIdx ls).filter _⟩, ?_, ?_, ?_⟩
  · intro row hrow
    rcases List.mem_append.mp hrow with h | h
    · exact (mem_selected.mp h).1
    · exact (mem_selected.mp h).1
  · intro n hn hlength
    have hline : ls[n - 1]? = some ls[n - 1] := List.getElem?_eq_getElem (by omega)
    rw [mem_snd_selected hn hline, mem_snd_selected hn hline]
    cases test ls[n - 1] <;> simp [Xor]
  · rw [mergeByNumber_selected, List.zipIdx_map_fst]

end Command

/-! ## Records of searches -/

namespace Args

open SearchUnit

/-- The record of a search for a pattern, or for the lines that the pattern does not match. -/
structure Searches (args : Args) (source : Text) (inverted : Bool) : Prop where
  pattern : args.text? .pattern = some source
  inverted : args.holds .invertMatch = inverted

/-- The flags for the lines that a pattern does not match. -/
def invertFlags : List Text :=
  ["-v", "--invert-match"]

/-- The flags about letter case. -/
def caseFlags : List Text :=
  ["-i", "--ignore-case"]

variable {front back : List SearchUnit} {t source : Text}

/-- A flag to invert a search, between any two of its units, does this and nothing else. -/
theorem searches_insert (ht : t ∈ invertFlags)
    (h : (search (write front ++ write back)).text? .pattern = some source) :
    (search (write front ++ t :: write back)).Searches source true
      ∧ (search (write front ++ t :: write back)).text? .path
        = (search (write front ++ write back)).text? .path := by
  have hlookup : ∀ t ∈ invertFlags, searchTable.lookup t = some .invertMatch := by decide
  have hget := get?_search_insert (hlookup t ht) front back
  refine ⟨⟨?_, ?_⟩, ?_⟩
  · rw [text?, hget, if_neg (by decide)]
    exact h
  · rw [holds, hget, if_pos rfl]
    rfl
  · rw [text?, hget, if_neg (by decide), text?]

end Args

/-! ## Searches -/

namespace Command

open Args (Searches SearchUnit)

variable {args other plain : Args} {source path content : Text} {inverted : Bool}
  {pattern : Pattern} {modes : Pattern.Modes} {s : ShellState}

def found (modes : Pattern.Modes) (pattern : Pattern) (inverted : Bool) (content : Text) :
    List (Text × Nat) :=
  selected (fun line => Pattern.occursIn modes pattern line != inverted) (Text.lines content)

theorem outcome_search_named (hargs : args.Searches source inverted)
    (hvalid : Pattern.read source = .ok (pattern, modes)) (hpath : args.text? .path = some path)
    (hread : s.Reads path content) :
    (search args none).outcome s
      = (.ok (.ok (Text.joinLines ((found modes pattern inverted content).map numberedLine))), s)
    := by
  simp only [search, hargs.pattern, hvalid, hpath, hargs.inverted]
  rw [outcome_bind_read hread, selectLines_numbered]
  rfl

theorem outcome_search_piped (hargs : args.Searches source inverted)
    (hvalid : Pattern.read source = .ok (pattern, modes)) (content : Text) (s : ShellState) :
    (search args (some content)).outcome s
      = (.ok (.ok (Text.joinLines ((found modes pattern inverted content).map Prod.fst))), s) := by
  simp only [search, hargs.pattern, hvalid, hargs.inverted]
  rw [selectLines_plain, found, map_fst_selected]
  rfl

/-- A search looks at its pattern, its path and the flag to invert it. -/
theorem search_congr
    (h : ∀ key ∈ [Key.pattern, .path, .invertMatch], args.get? key = other.get? key)
    (piped : Option Text) : search args piped = search other piped := by
  have htext (key : Key) (hkey : key ∈ [Key.pattern, .path, .invertMatch]) :
      args.text? key = other.text? key := by
    rw [Args.text?, h key hkey, Args.text?]
  have hinvert : args.holds .invertMatch = other.holds .invertMatch := by
    rw [Args.holds, h _ (by simp), Args.holds]
  simp only [search, htext .pattern (by simp), htext .path (by simp), hinvert]

theorem search_insert {front back : List SearchUnit} {t : Text} (ht : t ∈ Args.caseFlags)
    (piped : Option Text) :
    search (Args.search (SearchUnit.write front ++ t :: SearchUnit.write back)) piped
      = search (Args.search (SearchUnit.write front ++ SearchUnit.write back)) piped := by
  have hlookup : ∀ t ∈ Args.caseFlags, Args.searchTable.lookup t = some .caseInsensitive := by
    decide
  refine search_congr (fun key hkey => ?_) piped
  rw [Args.get?_search_insert (hlookup t ht), if_neg]
  rintro rfl
  exact absurd hkey (by decide)

/-- A file whose first line starts like a number and whose second one is blank. -/
def markedLines : ShellState :=
  ⟨{}, .ofMemory { tree := .file ['f'] "2:x\n\nX\n" .empty, quota := 10 } {} {}⟩

end Command

end PipeShell
