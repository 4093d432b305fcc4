import PipeShell.Proofs.Args.SearchUnits

/-!
# Places of flags

Flags may stand anywhere: a verb has the same record for all tokens with the same operands in order
and the same flags that it knows. In a search a flag that takes a pattern moves together with it,
and the last pattern holds.
-/

namespace PipeShell.Args

open SearchUnit

variable {v : Verb} {tokens tokens' : List Text} {us us' : List SearchUnit}

/-- The switches of a verb. -/
def switches : Verb → List (Text × Key)
  | .wordCount => countTable
  | .search => searchTable
  | v => flagTable v

/-- The flags that a verb knows, apart from those that take a value. -/
def knownFlags (v : Verb) : List Text :=
  (switches v).map Prod.fst

theorem sameMap_mark {table : List (Text × Key)}
    (h : ∀ t ∈ table.map Prod.fst, t ∈ tokens ↔ t ∈ tokens') :
    (mark table tokens).SameMap (mark table tokens') := by
  intro key
  simp only [get?_mark_eq, switched_congr h]

theorem sameMap_countFlags (h : ∀ t ∈ countTable.map Prod.fst, t ∈ tokens ↔ t ∈ tokens') :
    (countFlags tokens).SameMap (countFlags tokens') := by
  have hselects : SelectsCounts tokens ↔ SelectsCounts tokens' := by
    rw [selectsCounts_iff, selectsCounts_iff]
    exact exists_congr fun _ => switched_congr h
  intro key
  simp only [get?_countFlags_eq, hselects, switched_congr h]

theorem sameMap_search (hoperands : operandsOf us = operandsOf us')
    (hpatterns : patternsOf us = patternsOf us')
    (hflags : ∀ t ∈ searchTable.map Prod.fst, t ∈ flagsOf us ↔ t ∈ flagsOf us') :
    (search (write us)).SameMap (search (write us')) := by
  intro key
  by_cases hpattern : key = .pattern
  · rw [hpattern, get?_pattern_search, get?_pattern_search, hoperands, hpatterns]
  by_cases hpath : key = .path
  · rw [hpath, get?_path_search, get?_path_search, hoperands, hpatterns]
  · simp only [get?_search hpattern hpath, switched_congr hflags]

/-- Where no flag takes a value and all tokens are scanned, the places of flags do not matter. -/
theorem sameMap_parse (hv : v ∉ [Verb.echo, .write, .search, .head, .tail])
    (hoperands : operands tokens = operands tokens')
    (hflags : ∀ t ∈ knownFlags v, t ∈ tokens ↔ t ∈ tokens') :
    ∃ args args', parse v tokens = .ok args ∧ parse v tokens' = .ok args' ∧ args.SameMap args' := by
  have hslots (h : switches v = flagTable v) :
      (flagsAndSlots (flagTable v) (slots v) tokens).SameMap
        (flagsAndSlots (flagTable v) (slots v) tokens') := by
    rw [knownFlags, h] at hflags
    rw [flagsAndSlots, flagsAndSlots, hoperands]
    exact (sameMap_mark hflags).fill _ _
  cases v with
  | echo | write | search | head | tail => simp at hv
  | concatenate =>
      refine ⟨_, _, rfl, rfl, fun key => ?_⟩
      simp only [pathOrPaths, hoperands]
  | importFiles =>
      refine ⟨_, _, rfl, rfl, fun key => ?_⟩
      simp only [pathList, hoperands]
  | wordCount =>
      refine ⟨_, _, rfl, rfl, ?_⟩
      rw [hoperands]
      exact (sameMap_countFlags hflags).fill _ _
  | _ => exact ⟨_, _, rfl, rfl, hslots rfl⟩

/-- Flags may stand anywhere. Where no flag takes a value, tokens with the same operands in order
and the same known flags give the same record, whatever other flags they have and how often. In a
search the same holds when each pattern stays behind its flag and the patterns keep their order. Its
pattern is then the last one that a flag gives, and else the first operand. Only a flag that lacks
its pattern at the end of the tokens is no part of such a row. -/
theorem parse_of_moved_flags :
    (∀ v ∉ [Verb.echo, .write, .search, .head, .tail], ∀ tokens tokens',
        operands tokens = operands tokens' → (∀ t ∈ knownFlags v, t ∈ tokens ↔ t ∈ tokens') →
          ∃ args args', parse v tokens = .ok args ∧ parse v tokens' = .ok args'
            ∧ args.SameMap args')
      ∧ (∀ us us', operandsOf us = operandsOf us' → patternsOf us = patternsOf us' →
        (∀ t ∈ knownFlags .search, t ∈ flagsOf us ↔ t ∈ flagsOf us') →
          ∃ args args', parse .search (write us) = .ok args ∧ parse .search (write us') = .ok args'
            ∧ args.SameMap args'
            ∧ args.text? .pattern = (patternsOf us).getLast?.or (operandsOf us).head?)
      ∧ ∀ tokens, ∃ us, tokens = write us ∨ ∃ t, TakesPattern t ∧ tokens = write us ++ [t] := by
  refine ⟨fun v hv tokens tokens' => sameMap_parse hv, ?_, exists_units⟩
  intro us us' hoperands hpatterns hflags
  refine ⟨_, _, rfl, rfl, sameMap_search hoperands hpatterns hflags, ?_⟩
  rw [text?, get?_pattern_search]
  cases (patternsOf us).getLast?.or (operandsOf us).head? <;> rfl

/-- Counts in two orders, and searches for `-i` in two orders. -/
theorem parse_of_moved_flags_twice :
    (∃ args args', parse .wordCount ["-l", "f", "-w"] = .ok args
        ∧ parse .wordCount ["-w", "-w", "-x", "-l", "f"] = .ok args' ∧ args.SameMap args')
      ∧ ∃ args args', parse .search ["-v", "-e", "-i", "f"] = .ok args
        ∧ parse .search ["f", "-e", "-i", "-x", "-v", "-v"] = .ok args' ∧ args.SameMap args'
        ∧ args.text? .pattern = some "-i" := by
  obtain ⟨hplain, hsearch, -⟩ := parse_of_moved_flags
  refine ⟨hplain .wordCount (by decide) _ _ (by decide) (by decide), ?_⟩
  exact hsearch [.flag "-v" rfl (by decide), .pattern "-e" "-i" (.inl rfl), .operand "f" rfl]
    [.operand "f" rfl, .pattern "-e" "-i" (.inl rfl), .flag "-x" rfl (by decide),
      .flag "-v" rfl (by decide), .flag "-v" rfl (by decide)] rfl rfl (by decide)

end PipeShell.Args
