import PipeShell.Proofs.Number.Digits
import PipeShell.Proofs.Shell.Piped

/-!
# Piped text comes first

A verb that reads a text and has one from the pipe does not look at the store, nor at the paths that
it was given, except that a line range takes its path for a count when it is a numeral.
-/

namespace PipeShell

/-- The verbs that read a text, from files or from the pipe. -/
def Verb.reading : List Verb :=
  .concatenate :: viewing

/-! ## Actions that use no state -/

namespace Action

variable {σ α : Type}

/-- The action gives the same in every state, and keeps the state. -/
def Stateless (x : Action σ α) : Prop :=
  ∃ r, ∀ s, x.outcome s = (r, s)

theorem stateless_pure (a : α) : (pure a : Action σ α).Stateless :=
  ⟨.ok a, outcome_pure a⟩

theorem stateless_throw (f : Failure) : (throw f : Action σ α).Stateless :=
  ⟨.error f, outcome_throw f⟩

end Action

/-! ## Records that differ in their paths -/

namespace Args

variable {args other : Args}

/-- The records have the same values but for the paths to read. -/
def SameButPaths (args other : Args) : Prop :=
  ∀ key ∉ [Key.path, .paths], args.get? key = other.get? key

theorem sameButPaths_set {key : Key} (h : key ∈ [Key.path, .paths]) (value : Value) (args : Args) :
    args.SameButPaths (args.set key value) := by
  intro other hother
  have hne : other ≠ key := fun heq => hother (heq ▸ h)
  rw [get?_set_of_ne hne]

theorem sameButPaths_without {key : Key} (h : key ∈ [Key.path, .paths]) (args : Args) :
    args.SameButPaths (args.without key) := by
  intro other hother
  have hne : other ≠ key := fun heq => hother (heq ▸ h)
  rw [get?_without_of_ne hne]

theorem SameButPaths.holds (h : args.SameButPaths other) (key : Key)
    (hkey : key ∉ [Key.path, .paths]) : args.holds key = other.holds key := by
  rw [Args.holds, h key hkey, Args.holds]

/-- The path of the record is not taken for a count. -/
def CountsNoPath (args : Args) : Prop :=
  args.has .lines = true
    ∨ ∀ path, args.text? .path = some path → ∀ n, ¬Numeral.HasDigits path n

end Args

namespace Command

open PipeShell.Action

variable {args other : Args} {content : Text} {s : ShellState} {v : Verb}

/-! ## Line ranges -/

/-- The count of lines of a piped text: the one that is given, else the path if it is a numeral. -/
def pipedCount (args : Args) : Except Failure (Option Value) :=
  match args.text? .path, args.get? .lines with
  | some path, none => (Numeral.count? path).map (Option.map fun (n : Nat) => .number n)
  | _, count => .ok count

theorem outcome_lineWindow_piped (fromEnd : Bool) (args : Args) (content : Text) (s : ShellState) :
    (lineWindow fromEnd args (some content)).outcome s
      = ((pipedCount args).map fun count =>
          .ok (Text.joinLines (window fromEnd (lineCount count) (Text.lines content))), s) := by
  unfold lineWindow pipedCount
  cases args.text? .path with
  | none => rfl
  | some path =>
      cases args.get? .lines with
      | some count => rfl
      | none =>
          cases hcount : Numeral.count? path with
          | error f => simp [hcount, Except.map]
          | ok n => cases n <;> simp [hcount, Except.map]

theorem pipedCount_eq (h : args.CountsNoPath) : pipedCount args = .ok (args.get? .lines) := by
  rw [pipedCount]
  split
  · rename_i path hpath hlines
    have hno : ¬∃ digits, Numeral.lineDigits? path = some digits := by
      rintro ⟨digits, hdigits⟩
      rcases h with h | h
      · simp [Args.has, hlines] at h
      · exact h path hpath _ (Numeral.hasDigits_iff.mpr ⟨digits, hdigits, rfl⟩)
    have hcount : Numeral.count? path = .ok none := by
      rw [Numeral.count?, Option.eq_none_iff_forall_not_mem.mpr fun digits h => hno ⟨digits, h⟩]
    rw [hcount, hlines]
    rfl
  · rfl

/-! ## The other verbs -/

theorem stateless_withInput {form : Text} {run : Text → Command} (h : (run content).Stateless) :
    (withInput args (some content) form run).Stateless :=
  h

theorem stateless_sort {collate : Collation} : (sort collate args (some content)).Stateless := by
  refine stateless_withInput ?_
  dsimp only
  split
  · exact stateless_throw _
  · exact stateless_pure _

theorem stateless_search : (search args (some content)).Stateless := by
  unfold search
  split
  · exact stateless_pure _
  · split
    · exact stateless_throw _
    · exact stateless_pure _
    · exact stateless_pure _

theorem stateless_ofVerb {v : Verb} (hv : v ∈ Verb.reading) (args : Args) (content : Text) :
    (ofVerb v args (some content)).Stateless := by
  simp only [Verb.reading, Verb.viewing, List.mem_cons, List.not_mem_nil, or_false] at hv
  rcases hv with rfl | rfl | rfl | rfl | rfl | rfl | rfl
  · exact stateless_withInput (stateless_pure _)
  · exact stateless_sort
  · exact stateless_withInput (stateless_pure _)
  · exact stateless_withInput (stateless_pure _)
  · exact ⟨_, outcome_lineWindow_piped false args content⟩
  · exact ⟨_, outcome_lineWindow_piped true args content⟩
  · exact stateless_search

/-! ## Other paths -/

section OtherPaths

variable (h : args.SameButPaths other)
include h

theorem outcome_sort_otherPaths {collate : Collation} :
    (sort collate other (some content)).outcome s
      = (sort collate args (some content)).outcome s := by
  rw [sort, sort, outcome_withInput_piped, outcome_withInput_piped]
  simp only [h.holds .numeric (by decide), h.holds .ignoreCase (by decide),
    h.holds .reverse (by decide), h.holds .unique (by decide)]

theorem outcome_deduplicate_otherPaths :
    (deduplicate other (some content)).outcome s = (deduplicate args (some content)).outcome s := by
  rw [deduplicate, deduplicate, outcome_withInput_piped, outcome_withInput_piped]
  simp only [h.holds .ignoreCase (by decide), h.holds .duplicatesOnly (by decide),
    h.holds .uniqueOnly (by decide), h.holds .count (by decide)]

theorem outcome_wordCount_otherPaths :
    (wordCount other (some content)).outcome s = (wordCount args (some content)).outcome s := by
  rw [wordCount, wordCount, outcome_withInput_piped, outcome_withInput_piped]
  simp only [counts, List.filter_cons, List.filter_nil, h .countLines (by decide),
    h .countWords (by decide), h .countChars (by decide)]

theorem outcome_search_otherPaths :
    (search other (some content)).outcome s = (search args (some content)).outcome s := by
  have hpattern : args.text? .pattern = other.text? .pattern := by
    rw [Args.text?, h .pattern (by decide), Args.text?]
  rw [search, search, hpattern, h.holds .invertMatch (by decide)]

theorem outcome_lineWindow_otherPaths (hargs : args.CountsNoPath) (hother : other.CountsNoPath)
    (fromEnd : Bool) :
    (lineWindow fromEnd other (some content)).outcome s
      = (lineWindow fromEnd args (some content)).outcome s := by
  rw [outcome_lineWindow_piped, outcome_lineWindow_piped, pipedCount_eq hargs,
    pipedCount_eq hother, h .lines (by decide)]

theorem outcome_ofVerb_otherPaths (hv : v ∈ Verb.reading)
    (hcount : v = .head ∨ v = .tail → args.CountsNoPath ∧ other.CountsNoPath) :
    (ofVerb v other (some content)).outcome s = (ofVerb v args (some content)).outcome s := by
  simp only [Verb.reading, Verb.viewing, List.mem_cons, List.not_mem_nil, or_false] at hv
  rcases hv with rfl | rfl | rfl | rfl | rfl | rfl | rfl
  · rfl
  · exact outcome_sort_otherPaths h
  · exact outcome_deduplicate_otherPaths h
  · exact outcome_wordCount_otherPaths h
  · obtain ⟨hargs, hother⟩ := hcount (.inl rfl)
    exact outcome_lineWindow_otherPaths h hargs hother false
  · obtain ⟨hargs, hother⟩ := hcount (.inr rfl)
    exact outcome_lineWindow_otherPaths h hargs hother true
  · exact outcome_search_otherPaths h

end OtherPaths

/-- A verb that reads a text answers alike on piped text in all sessions, and changes none of them.
The paths that it was given do not matter, unless a line range takes one for its count. -/
theorem ofVerb_on_piped (hv : v ∈ Verb.reading) (args : Args) (content : Text) :
    (∀ s t : ShellState,
        ((ofVerb v args (some content)).outcome s).1 = ((ofVerb v args (some content)).outcome t).1
          ∧ ((ofVerb v args (some content)).outcome s).2 = s)
      ∧ ∀ other, args.SameButPaths other →
        (v = .head ∨ v = .tail → args.CountsNoPath ∧ other.CountsNoPath) →
        ∀ s, (ofVerb v other (some content)).outcome s
          = (ofVerb v args (some content)).outcome s := by
  obtain ⟨r, hr⟩ := stateless_ofVerb hv args content
  refine ⟨fun s t => ?_, fun other h hcount s => outcome_ofVerb_otherPaths h hv hcount⟩
  rw [hr s, hr t]
  exact ⟨rfl, rfl⟩

/-- A path that is a numeral does not matter beside a count, nor does another path in its place. -/
theorem head_on_piped :
    ((ofVerb .head [(.path, .text "5"), (.lines, .number 1)] (some "a\nb")).outcome
        ⟨{ cwd := "d" }, { backing := .memory ⟨Folder.empty.write ["d", "5"] "c", 100⟩ }⟩).1
        = .ok (.ok "a")
      ∧ ((ofVerb .head [(.lines, .number 1)] (some "a\nb")).outcome
        ⟨{}, { backing := .memory ⟨Folder.empty, 100⟩ }⟩).1 = .ok (.ok "a")
      ∧ ((ofVerb .head [(.path, .text "c"), (.lines, .number 1)] (some "a\nb")).outcome
        ⟨{}, { backing := .memory ⟨Folder.empty, 100⟩ }⟩).1 = .ok (.ok "a") := by
  let args : Args := [(.path, .text "5"), (.lines, .number 1)]
  let s : ShellState := ⟨{}, { backing := .memory ⟨Folder.empty, 100⟩ }⟩
  have hhead : Verb.head ∈ Verb.reading := by decide
  obtain ⟨hsessions, hpaths⟩ := ofVerb_on_piped hhead args "a\nb"
  have hpath : Key.path ∈ [Key.path, .paths] := by decide
  have hwithout := hpaths _ (Args.sameButPaths_without hpath args) fun _ => ⟨.inl rfl, .inl rfl⟩
  have hset := hpaths _ (Args.sameButPaths_set hpath (.text "c") args) fun _ => ⟨.inl rfl, .inl rfl⟩
  exact ⟨(hsessions _ s).1.trans rfl, congrArg Prod.fst (hwithout s), congrArg Prod.fst (hset s)⟩

end Command

end PipeShell
