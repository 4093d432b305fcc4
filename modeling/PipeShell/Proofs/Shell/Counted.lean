import PipeShell.Proofs.Args.Switches
import PipeShell.Proofs.Number.Front
import PipeShell.Proofs.Shell.Answers

/-!
# Counts of a text

A count of a piped text shows the numbers whose flags stand among its tokens, or all of them when no
such flag does. The order, the repetition and the place of the flags do not matter.
-/

namespace PipeShell

open PipeShell.Action

/-! ## Words -/

namespace Text

/-- How many words begin in a text: the characters that are not blanks, behind a blank or at the
start. -/
def wordStarts (t : Text) : Nat :=
  ((' ' :: t).zip t).countP fun (before, c) => isBlank before && !isBlank c

/-- Behind a character that is not cut at, the first piece goes on and does not begin. -/
theorem countP_starts (p : Char → Bool) (before : Char) (t : Text) :
    ((before :: t).zip t).countP (fun (before, c) => p before && !p c)
      = ((if p before then pieces p t else (pieces p t).tail).filter (· ≠ [])).length := by
  induction t generalizing before with
  | nil => cases p before <;> rfl
  | cons c t ih =>
      obtain ⟨first, rest, hpieces⟩ : ∃ first rest, pieces p t = first :: rest :=
        List.exists_cons_of_ne_nil (by rw [pieces_eq_splitOnP]; exact List.splitOnP_ne_nil p t)
      simp only [List.zip_cons_cons, List.countP_cons, ih c, pieces, hpieces]
      cases p c <;> cases p before <;> simp

theorem length_words (t : Text) : (words t).length = wordStarts t :=
  (countP_starts isBlank ' ' t).symm

theorem isBlank_of_isDigit {c : Char} (h : c.isDigit = true) : isBlank c = false := by
  have hrange : 48 ≤ c.toNat ∧ c.toNat ≤ 57 := by
    simpa [Char.isDigit, UInt32.le_iff_toNat_le] using h
  have hflips : ¬c.toNat < 0x9 ∧ ¬c.toNat < 0xE ∧ ¬c.toNat < 0x1C ∧ ¬c.toNat < 0x21
      ∧ c.toNat < 0x85 := by
    omega
  simp [isBlank, blankFlips, inFlips, hflips]

theorem words_replicate_append (n : Nat) (t : Text) :
    words (List.replicate n ' ' ++ t) = words t :=
  runs_cut_append (fun c hc => by rw [List.eq_of_mem_replicate hc]; rfl) t

theorem words_padLeft_ofNat (width n : Nat) : words (padLeft width (ofNat n)) = [ofNat n] := by
  have hdigits : ∀ c ∈ ofNat n, isBlank c = false :=
    fun c hc => isBlank_of_isDigit (isDigit_of_mem_ofNat hc)
  rw [padLeft, words_replicate_append, words, runs, pieces_of_uncut hdigits]
  simp [ofNat_ne_nil]

/-- Numbers next to each other stay apart, also where they are wider than their columns. -/
theorem words_join_padLeft (width : Nat) (ns : List Nat) :
    words (join [' '] (ns.map fun n => padLeft width (ofNat n))) = ns.map ofNat := by
  induction ns with
  | nil => rfl
  | cons n ns ih =>
      cases ns with
      | nil => exact words_padLeft_ofNat width n
      | cons m ns =>
          rw [List.map_cons, join_cons _ _ (by simp), List.append_assoc, List.singleton_append,
            words, runs_append_cons _ _ rfl, ← words, ← words, ih, words_padLeft_ofNat]
          rfl

end Text

/-! ## Counts and their flags -/

namespace Command

open Args (SelectsCounts Switched countFlags countTable noCounts)

/-- A number that is counted in texts, with the flags that ask for it and the key that they set. -/
structure Count where
  key : Key
  flags : List Text
  of : Text → Nat

/-- A flag of the count stands among the tokens. -/
def Count.Asked (count : Count) (tokens : List Text) : Prop :=
  ∃ t ∈ count.flags, t ∈ tokens

instance (count : Count) (tokens : List Text) : Decidable (count.Asked tokens) :=
  inferInstanceAs (Decidable (∃ t ∈ count.flags, t ∈ tokens))

/-- All counts, in the order in which they are shown. -/
def allCounts : List Count :=
  [⟨.countLines, ["-l", "--lines"], fun t => t.count '\n'⟩,
    ⟨.countWords, ["-w", "--words"], Text.wordStarts⟩,
    ⟨.countChars, ["-c", "-m", "--chars"], List.length⟩]

/-- The counts to show: those that the tokens ask for, or all when they ask for none. -/
def shownCounts (tokens : List Text) : List Count :=
  let asked := allCounts.filter fun count => count.Asked tokens
  if asked = [] then allCounts else asked

def countLine (ns : List Nat) : Text :=
  "  " ++ Text.join [' '] (ns.map fun n => Text.padLeft 6 (Text.ofNat n))

theorem words_countLine (ns : List Nat) : Text.words (countLine ns) = ns.map Text.ofNat :=
  (Text.words_replicate_append 2 _).trans (Text.words_join_padLeft 6 ns)

variable {count : Count} {tokens : List Text}

theorem counts_eq (content : Text) :
    counts content = allCounts.map fun count => (count.key, count.of content) := by
  simp [counts, allCounts, Text.length_words]

theorem key_mem (h : count ∈ allCounts) :
    count.key ∈ [Key.countLines, .countWords, .countChars] :=
  List.mem_map_of_mem h

theorem mem_flags_iff (h : count ∈ allCounts) {t : Text} :
    t ∈ count.flags ↔ countTable.lookup t = some count.key := by
  rw [Args.lookup_eq_some_iff (by decide)]
  simp only [allCounts, List.mem_cons, List.not_mem_nil, or_false] at h
  rcases h with rfl | rfl | rfl <;> simp [countTable]

theorem asked_iff (h : count ∈ allCounts) :
    count.Asked tokens ↔ Switched countTable tokens count.key := by
  simp only [Count.Asked, Switched, mem_flags_iff h, and_comm]

theorem selectsCounts_iff_asked :
    SelectsCounts tokens ↔ ∃ count ∈ allCounts, count.Asked tokens := by
  have hkeys : ∀ entry ∈ countTable, ∃ count ∈ allCounts, count.key = entry.2 := by decide
  constructor
  · rintro ⟨t, ht, hfound⟩
    obtain ⟨key, hkey⟩ := Option.isSome_iff_exists.mp hfound
    obtain ⟨count, hcount, rfl⟩ := hkeys _ ((Args.lookup_eq_some_iff (by decide)).mp hkey)
    exact ⟨count, hcount, (asked_iff hcount).mpr ⟨t, ht, hkey⟩⟩
  · rintro ⟨count, hcount, hasked⟩
    exact Args.selectsCounts_iff.mpr ⟨_, (asked_iff hcount).mp hasked⟩

/-- The counts to show, one by one: as soon as some count is asked for, only those asked for. -/
theorem shownCounts_eq (tokens : List Text) :
    shownCounts tokens
      = allCounts.filter fun count => SelectsCounts tokens → count.Asked tokens := by
  -- The tokens ask for some count exactly when the scan of the flags leaves its defaults.
  by_cases h : SelectsCounts tokens
  · have hasked : allCounts.filter (·.Asked tokens) ≠ [] := by
      simpa [List.filter_eq_nil_iff] using selectsCounts_iff_asked.mp h
    simp [shownCounts, hasked, h]
  · have hnone : allCounts.filter (·.Asked tokens) = [] := by
      simpa [List.filter_eq_nil_iff] using selectsCounts_iff_asked.not.mp h
    simp [shownCounts, hnone, h]

/-- What the flags say about a count, and the reading of a count about which they say nothing, come
to the same. -/
theorem holds_countFlags (hcount : count ∈ allCounts) (tokens : List Text) :
    (((countFlags tokens).get? count.key).map Value.holds).getD true
      = decide (SelectsCounts tokens → count.Asked tokens) := by
  have hdeselected : ∀ key ∈ [Key.countLines, .countWords, .countChars],
      noCounts.get? key = some (.flag false) := by decide
  rw [Args.get?_countFlags_eq, hdeselected _ (key_mem hcount)]
  by_cases hselects : SelectsCounts tokens
  · by_cases hasked : count.Asked tokens <;>
      simp [hselects, hasked, ← asked_iff hcount, Value.holds]
  · simp [hselects]

/-- A count shows exactly what is asked for: behind two blanks the numbers of the counts, each right
aligned in six columns, with a blank between neighbours. They are in the order of the counts. Other
tokens, and the order and the repetition of the flags, do not matter. The numbers are the words of
the line, so that they can be read back. -/
theorem wordCount_shows_asked (tokens : List Text) (content : Text) (s : ShellState) :
    let shown := (shownCounts tokens).map (·.of content)
    (∃ args, Args.parse .wordCount tokens = .ok args
      ∧ (ofVerb .wordCount args (some content)).outcome s = (.ok (.ok (countLine shown)), s))
    ∧ Text.words (countLine shown) = shown.map Text.ofNat := by
  intro shown
  refine ⟨⟨_, rfl, ?_⟩, words_countLine shown⟩
  have hselected : (counts content).filter (fun entry =>
      (((Args.fill [.path] (Args.operands tokens) (countFlags tokens)).get? entry.1).map
        Value.holds).getD true)
      = (shownCounts tokens).map fun count => (count.key, count.of content) := by
    rw [counts_eq, List.filter_map, shownCounts_eq]
    refine congrArg _ (List.filter_congr fun count hcount => ?_)
    have hkey : count.key ∉ [Key.path] := fun h =>
      absurd (key_mem hcount) (by rw [List.mem_singleton.mp h]; decide)
    rw [Function.comp_apply, Args.get?_fill hkey, holds_countFlags hcount]
  simp only [ofVerb, wordCount, outcome_withInput_piped, hselected, countLine, shown, List.map_map]
  rfl

example : countLine ((shownCounts ["-m", "f", "-x", "-l", "-l"]).map (·.of "a b\n"))
    = "       1      4" := rfl

end Command

end PipeShell
