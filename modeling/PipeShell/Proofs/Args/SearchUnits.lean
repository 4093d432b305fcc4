import PipeShell.Proofs.Args.Switches

/-!
# Units of searches

The tokens of a search are a row of units: an operand, a flag on its own, or a flag that takes a
pattern together with the token behind it. The record of the search is told by the operands, the
flags and the patterns of its units, each for themselves.
-/

namespace PipeShell.Args

/-- The token takes the one behind it as the pattern. -/
def TakesPattern (t : Text) : Prop :=
  t = "-e" ∨ t = "--regexp"

instance (t : Text) : Decidable (TakesPattern t) :=
  inferInstanceAs (Decidable (_ ∨ _))

/-- A part of the tokens of a search that stays together. -/
inductive SearchUnit
  | operand (t : Text) (h : isFlag t = false)
  | flag (t : Text) (h : isFlag t = true) (alone : ¬TakesPattern t)
  | pattern (t value : Text) (h : TakesPattern t)

/-- The switches of a search. -/
def searchTable : List (Text × Key) :=
  [("-i", .caseInsensitive), ("--ignore-case", .caseInsensitive), ("-v", .invertMatch),
    ("--invert-match", .invertMatch)]

namespace SearchUnit

/-- The tokens of a unit. -/
def tokens : SearchUnit → List Text
  | operand t _ => [t]
  | flag t _ _ => [t]
  | pattern t value _ => [t, value]

/-- The operand of a unit that is one. -/
def operand? : SearchUnit → Option Text
  | operand t _ => some t
  | _ => none

/-- The flag of a unit that is one. -/
def flag? : SearchUnit → Option Text
  | flag t _ _ => some t
  | _ => none

/-- The pattern of a unit that gives one. -/
def pattern? : SearchUnit → Option Text
  | pattern _ value _ => some value
  | _ => none

/-- The record after one more unit. The operands are put into it at the end. -/
def record (args : Args) : SearchUnit → Args
  | operand _ _ => args
  | flag t _ _ => switch searchTable args t
  | pattern _ value _ => args.set .pattern (.text value)

/-- The tokens of a row of units. -/
def write (us : List SearchUnit) : List Text :=
  us.flatMap tokens

end SearchUnit

open SearchUnit

variable {us us' : List SearchUnit} {t : Text} {key : Key}

/-! ## Every row of tokens is a row of units -/

theorem isFlag_of_takesPattern (h : TakesPattern t) : isFlag t = true := by
  rcases h with rfl | rfl <;> rfl

/-- The unit of a token that takes no pattern. -/
def SearchUnit.single (t : Text) (h : ¬TakesPattern t) : SearchUnit :=
  if hflag : isFlag t = true then .flag t hflag h else .operand t (by simpa using hflag)

theorem SearchUnit.tokens_single (h : ¬TakesPattern t) : (single t h).tokens = [t] := by
  unfold single
  split <;> rfl

/-- Tokens are a row of units, up to a flag at their end that lacks its pattern. -/
theorem exists_units (ts : List Text) :
    ∃ us, ts = write us ∨ ∃ t, TakesPattern t ∧ ts = write us ++ [t] := by
  -- A flag and its pattern go together, so the recursion may pass a token over.
  match ts with
  | [] => exact ⟨[], .inl rfl⟩
  | t :: rest =>
      by_cases ht : TakesPattern t
      · match rest with
        | [] => exact ⟨[], .inr ⟨t, ht, rfl⟩⟩
        | value :: rest =>
            obtain ⟨us, hus⟩ := exists_units rest
            refine ⟨.pattern t value ht :: us, hus.imp (fun h => ?_) ?_⟩
            · rw [h]; rfl
            · rintro ⟨last, hlast, h⟩
              exact ⟨last, hlast, by rw [h]; rfl⟩
      · obtain ⟨us, hus⟩ := exists_units rest
        have htokens : write (.single t ht :: us) = t :: write us := by
          rw [write, List.flatMap_cons, tokens_single]
          rfl
        refine ⟨.single t ht :: us, hus.imp (fun h => ?_) ?_⟩
        · rw [h, htokens]
        · rintro ⟨last, hlast, h⟩
          exact ⟨last, hlast, by rw [h, htokens]; rfl⟩

/-! ## The scan -/

theorem switch_ignoreCase (h : t = "-i" ∨ t = "--ignore-case") (args : Args) :
    switch searchTable args t = args.set .caseInsensitive (.flag true) := by
  rcases h with rfl | rfl <;> rfl

theorem switch_invertMatch (h : t = "-v" ∨ t = "--invert-match") (args : Args) :
    switch searchTable args t = args.set .invertMatch (.flag true) := by
  rcases h with rfl | rfl <;> rfl

theorem switch_of_not (hi : ¬(t = "-i" ∨ t = "--ignore-case"))
    (hv : ¬(t = "-v" ∨ t = "--invert-match")) (args : Args) : switch searchTable args t = args := by
  have hnone : searchTable.lookup t = none := by
    refine Option.eq_none_iff_forall_ne_some.mpr fun key hkey => ?_
    have hmem : t ∈ [("-i" : Text), "--ignore-case", "-v", "--invert-match"] := mem_of_lookup hkey
    simp only [List.mem_cons, List.not_mem_nil, or_false] at hmem
    exact hmem.elim (fun h => hi (.inl h)) fun h =>
      h.elim (fun h => hi (.inr h)) hv
  rw [switch, hnone]

theorem searchFlags_taken (ht : TakesPattern t) (value : Text) (rest : List Text) (args : Args)
    (found : List Text) :
    searchFlags (t :: value :: rest) args found
      = searchFlags rest (args.set .pattern (.text value)) found := by
  rcases ht with rfl | rfl <;> rfl

theorem searchFlags_lone (ht : TakesPattern t) (args : Args) (found : List Text) :
    searchFlags [t] args found = (args, found) := by
  rcases ht with rfl | rfl <;> rfl

theorem operands_singleton (t : Text) : operands [t] = if isFlag t then [] else [t] := by
  cases h : isFlag t <;> simp [operands, h]

theorem searchFlags_single (ht : ¬TakesPattern t) (rest : List Text) (args : Args)
    (found : List Text) :
    searchFlags (t :: rest) args found
      = searchFlags rest (switch searchTable args t) (found ++ operands [t]) := by
  by_cases hi : t = "-i" ∨ t = "--ignore-case"
  · rw [switch_ignoreCase hi]
    rcases hi with rfl | rfl <;> cases rest <;> simp [searchFlags, operands_singleton, isFlag]
  by_cases hv : t = "-v" ∨ t = "--invert-match"
  · rw [switch_invertMatch hv]
    rcases hv with rfl | rfl <;> cases rest <;> simp [searchFlags, operands_singleton, isFlag]
  have htaken : ¬(t = "-e" ∨ t = "--regexp") := ht
  rw [switch_of_not hi hv, operands_singleton]
  -- The scan reads a last token by an equation of its own.
  cases rest with
  | nil =>
      simp only [searchFlags, hi, hv, if_false]
      split <;> simp
  | cons next rest =>
      rw [searchFlags, if_neg hi, if_neg hv, if_neg htaken]
      split <;> simp

/-! ## The record of a row of units -/

namespace SearchUnit

/-- The operands of the units. -/
def operandsOf (us : List SearchUnit) : List Text :=
  us.filterMap operand?

/-- The flags of the units that take no pattern. -/
def flagsOf (us : List SearchUnit) : List Text :=
  us.filterMap flag?

/-- The patterns of the units. -/
def patternsOf (us : List SearchUnit) : List Text :=
  us.filterMap pattern?

variable (u : SearchUnit) (us : List SearchUnit)

theorem operandsOf_cons : operandsOf (u :: us) = u.operand?.toList ++ operandsOf us := by
  cases u <;> rfl

theorem flagsOf_cons : flagsOf (u :: us) = u.flag?.toList ++ flagsOf us := by
  cases u <;> rfl

theorem patternsOf_cons : patternsOf (u :: us) = u.pattern?.toList ++ patternsOf us := by
  cases u <;> rfl

end SearchUnit

theorem switch_operand (h : isFlag t = false) (args : Args) : switch searchTable args t = args := by
  refine switch_of_not ?_ ?_ args
  all_goals
    rintro (rfl | rfl) <;> simp [isFlag] at h

theorem searchFlags_unit (u : SearchUnit) (rest : List Text) (args : Args) (found : List Text) :
    searchFlags (u.tokens ++ rest) args found
      = searchFlags rest (u.record args) (found ++ u.operand?.toList) := by
  cases u with
  | operand t h =>
      have ht : ¬TakesPattern t := fun htakes => by simp [isFlag_of_takesPattern htakes] at h
      rw [tokens, List.singleton_append, searchFlags_single ht, switch_operand h,
        operands_singleton, if_neg (by simp [h])]
      rfl
  | flag t h alone =>
      rw [tokens, List.singleton_append, searchFlags_single alone, operands_singleton, if_pos h]
      rfl
  | pattern t value h =>
      have hnone : found ++ (pattern t value h).operand?.toList = found := List.append_nil found
      rw [tokens, List.cons_append, List.singleton_append, searchFlags_taken h, hnone, record]

theorem searchFlags_write (us : List SearchUnit) (rest : List Text) (args : Args)
    (found : List Text) :
    searchFlags (write us ++ rest) args found
      = searchFlags rest (us.foldl record args) (found ++ operandsOf us) := by
  induction us generalizing args found with
  | nil => simp [write, operandsOf]
  | cons u us ih =>
      have htokens : write (u :: us) = u.tokens ++ write us := List.flatMap_cons
      rw [htokens, List.append_assoc, searchFlags_unit, ih, operandsOf_cons, List.append_assoc,
        List.foldl_cons]

theorem get?_pattern_foldl (us : List SearchUnit) (args : Args) :
    (us.foldl record args).get? .pattern
      = ((patternsOf us).getLast?.map Value.text).or (args.get? .pattern) := by
  induction us generalizing args with
  | nil => simp [patternsOf]
  | cons u us ih =>
      rw [List.foldl_cons, ih, patternsOf_cons]
      cases u with
      | operand t h => rfl
      | flag t h alone =>
          rw [record, get?_switch, if_neg fun ht => absurd rfl (ne_of_lookup (by decide) ht)]
          rfl
      | pattern t value h =>
          rw [record, get?_set_self, pattern?, Option.toList_some, List.singleton_append,
            List.getLast?_cons]
          cases (patternsOf us).getLast? <;> rfl

theorem get?_foldl_record (hkey : key ≠ .pattern) (us : List SearchUnit) (args : Args) :
    (us.foldl record args).get? key
      = if Switched searchTable (flagsOf us) key then some (.flag true) else args.get? key := by
  induction us generalizing args with
  | nil => simp [flagsOf]
  | cons u us ih =>
      rw [List.foldl_cons, ih, flagsOf_cons]
      cases u with
      | operand t h => rfl
      | flag t h alone =>
          rw [record, get?_switch, flag?, Option.toList_some, List.singleton_append]
          by_cases ht : searchTable.lookup t = some key <;> simp [switched_cons, ht]
      | pattern t value h => rw [record, get?_set_of_ne hkey]; rfl

/-! ## Searches -/

/-- The operands fill the slots: the first one is the pattern unless a flag gave it. -/
theorem search_write (us : List SearchUnit) :
    search (write us)
      = fill (if patternsOf us = [] then [.pattern, .path] else [.path]) (operandsOf us)
          (us.foldl record []) := by
  have hscan := searchFlags_write us [] [] []
  rw [List.append_nil, List.nil_append, searchFlags] at hscan
  have hgiven : (us.foldl record []).has .pattern = true ↔ patternsOf us ≠ [] := by
    rw [has, get?_pattern_foldl, get?_nil, Option.or_none, Option.isSome_map, List.getLast?_isSome]
  rw [search, hscan]
  by_cases hnone : patternsOf us = [] <;> simp [hgiven, hnone]

/-- A flag that lacks its pattern at the end of the tokens is passed over. -/
theorem search_write_lone (us : List SearchUnit) (ht : TakesPattern t) :
    search (write us ++ [t]) = search (write us) := by
  have hwhole := searchFlags_write us [] [] []
  rw [List.append_nil, searchFlags] at hwhole
  rw [search, search, searchFlags_write, searchFlags_lone ht, hwhole]

theorem exists_search_write (ts : List Text) : ∃ us, search ts = search (write us) := by
  obtain ⟨us, rfl | ⟨t, ht, rfl⟩⟩ := exists_units ts
  · exact ⟨us, rfl⟩
  · exact ⟨us, search_write_lone us ht⟩

theorem get?_pattern_search (us : List SearchUnit) :
    (search (write us)).get? .pattern
      = ((patternsOf us).getLast?.or (operandsOf us).head?).map Value.text := by
  rw [search_write]
  by_cases hnone : patternsOf us = []
  · rw [if_pos hnone, get?_fill_self (by decide), get?_pattern_foldl, hnone]
    simp
  · rw [if_neg hnone, get?_fill (by decide), get?_pattern_foldl,
      List.getLast?_eq_some_getLast hnone]
    rfl

theorem get?_path_search (us : List SearchUnit) :
    (search (write us)).get? .path
      = (if patternsOf us = [] then (operandsOf us).tail.head? else (operandsOf us).head?).map
          Value.text := by
  have hpath : (us.foldl record []).get? .path = none := by
    rw [get?_foldl_record (by decide), if_neg (not_switched (by decide)), get?_nil]
  rw [search_write]
  split
  · rw [get?_fill_tail (by decide), get?_fill_self (by decide), hpath, Option.or_none]
  · rw [get?_fill_self (by decide), hpath, Option.or_none]

theorem get?_search (hpattern : key ≠ .pattern) (hpath : key ≠ .path) (us : List SearchUnit) :
    (search (write us)).get? key
      = if Switched searchTable (flagsOf us) key then some (.flag true) else none := by
  have hslots : key ∉ if patternsOf us = [] then [Key.pattern, .path] else [.path] := by
    split <;> simp [hpattern, hpath]
  rw [search_write, get?_fill hslots, get?_foldl_record hpattern, get?_nil]

/-! ## Switches between units -/

theorem alone_of_lookup (h : searchTable.lookup t = some key) :
    isFlag t = true ∧ ¬TakesPattern t := by
  have halone : ∀ t ∈ searchTable.map Prod.fst, isFlag t = true ∧ ¬TakesPattern t := by decide
  exact halone t (mem_of_lookup h)

/-- A switch between any two units sets its key and no other one. -/
theorem get?_search_insert {switched : Key} (ht : searchTable.lookup t = some switched)
    (front back : List SearchUnit) (key : Key) :
    (search (write front ++ t :: write back)).get? key
      = if key = switched then some (.flag true)
        else (search (write front ++ write back)).get? key := by
  obtain ⟨hflag, halone⟩ := alone_of_lookup ht
  have hwrite : write front ++ t :: write back = write (front ++ .flag t hflag halone :: back) := by
    rw [write, write, write, List.flatMap_append, List.flatMap_cons]
    rfl
  have hwhole : write front ++ write back = write (front ++ back) := List.flatMap_append.symm
  have hoperands : operandsOf (front ++ .flag t hflag halone :: back)
      = operandsOf (front ++ back) := by
    simp only [operandsOf, List.filterMap_append, List.filterMap_cons, operand?]
  have hpatterns : patternsOf (front ++ .flag t hflag halone :: back)
      = patternsOf (front ++ back) := by
    simp only [patternsOf, List.filterMap_append, List.filterMap_cons, pattern?]
  have hswitched : Switched searchTable (flagsOf (front ++ .flag t hflag halone :: back)) key
      ↔ key = switched ∨ Switched searchTable (flagsOf (front ++ back)) key := by
    simp only [Switched, flagsOf, List.filterMap_append, List.filterMap_cons, flag?]
    grind
  have hswitch (other : Key) (hother : other ∉ searchTable.map (·.2)) : other ≠ switched :=
    ne_of_lookup hother ht
  rw [hwrite, hwhole]
  -- The pattern and the path are told by operands and patterns, which the switch is none of.
  by_cases hpattern : key = .pattern
  · rw [if_neg (hpattern ▸ hswitch .pattern (by decide)), hpattern, get?_pattern_search,
      get?_pattern_search, hoperands, hpatterns]
  by_cases hpath : key = .path
  · rw [if_neg (hpath ▸ hswitch .path (by decide)), hpath, get?_path_search, get?_path_search,
      hoperands, hpatterns]
  · rw [get?_search hpattern hpath, get?_search hpattern hpath]
    simp only [hswitched]
    by_cases hkey : key = switched <;> simp [hkey]

end PipeShell.Args
