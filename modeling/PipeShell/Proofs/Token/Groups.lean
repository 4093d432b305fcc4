import PipeShell.Proofs.Token.Quoting

/-!
# Groups of spans

The quoting grammar of a line. A line is a row of groups with runs of separators between them, and a
group is a row of adjacent spans, bare or in quotes. Every line is a row of groups, and its tokens are
the contents of the groups that have any.
-/

namespace PipeShell.Token

/-- A span of a group: bare characters, or a text between two quotes of one kind. -/
inductive GroupSpan
  | bare (content : Text) (filled : content ≠ [])
      (plain : ∀ c ∈ content, isQuote c = false ∧ isSeparator c = false)
  | quoted (quote : Char) (content : Text) (isQuote : isQuote quote = true)
      (closed : quote ∉ content)

namespace GroupSpan

/-- The span as it stands in a line. -/
def shown : GroupSpan → Text
  | bare content .. => content
  | quoted quote content .. => quote :: (content ++ [quote])

/-- What the span contributes to its token. -/
def content : GroupSpan → Text
  | bare content .. => content
  | quoted _ content .. => content

/-- The content characters, each with whether it is quoted. -/
def marked : GroupSpan → List (Char × Bool)
  | bare content .. => content.map (·, false)
  | quoted _ content .. => content.map (·, true)

end GroupSpan

/-- Adjacent spans, which are one token. -/
abbrev Group := List GroupSpan

namespace Group

/-- The group as it stands in a line. -/
def shown (g : Group) : Text :=
  g.flatMap GroupSpan.shown

/-- The contents of the spans, one after another. -/
def content (g : Group) : Text :=
  g.flatMap GroupSpan.content

end Group

/-- Only separators, or nothing at all. -/
def IsRun (t : Text) : Prop :=
  ∀ c ∈ t, isSeparator c = true

instance (t : Text) : Decidable (IsRun t) :=
  List.decidableBAll (fun c => isSeparator c = true) t

/-- The groups stand in the text, from its start. Behind each of them is a run of separators, which is
not empty between two groups. The closing quote of the last span may be missing at the end. -/
inductive Spells : List Group → Text → Prop
  | nil : Spells [] []
  | group {g gs run t} : IsRun run → (gs ≠ [] → run ≠ []) → Spells gs t →
      Spells (g :: gs) (Group.shown g ++ run ++ t)
  | unclosed {g : Group} {quote content} (hquote : isQuote quote = true)
      (hcontent : quote ∉ content) :
      Spells [g ++ [.quoted quote content hquote hcontent]] (Group.shown g ++ quote :: content)

/-- The line consists of these groups, behind a run of separators. -/
def SpellsLine (gs : List Group) (line : Text) : Prop :=
  ∃ run t, IsRun run ∧ Spells gs t ∧ line = run ++ t

variable {t run content : Text} {gs : List Group} {g : Group} {q : Char}

/-! ## Scanning a group -/

theorem scanFrom_bare (h : ∀ c ∈ content, isQuote c = false) (rest : Text) :
    scanFrom none (content ++ rest) = content.map (·, false) ++ scanFrom none rest := by
  induction content with
  | nil => rfl
  | cons c content ih =>
      rw [List.cons_append, scanFrom, if_neg (by simp [h c]), ih fun d hd => h d (by simp [hd])]
      rfl

theorem scanFrom_unclosed (h : q ∉ content) : scanFrom (some q) content = content.map (·, true) := by
  induction content with
  | nil => rfl
  | cons c content ih =>
      obtain ⟨hc, hcontent⟩ : q ≠ c ∧ q ∉ content := by simpa using h
      rw [scanFrom, if_neg (Ne.symm hc), ih hcontent]
      rfl

theorem GroupSpan.scanFrom_shown (s : GroupSpan) (rest : Text) :
    scanFrom none (s.shown ++ rest) = s.marked ++ scanFrom none rest := by
  cases s with
  | bare content _ plain => exact scanFrom_bare (fun c hc => (plain c hc).1) rest
  | quoted quote content hquote closed =>
      simp [shown, marked, scanFrom, hquote, scanFrom_span closed]

theorem GroupSpan.solid (s : GroupSpan) : Solid s.marked := by
  cases s with
  | bare content _ plain =>
      intro x hx
      obtain ⟨c, hc, rfl⟩ := List.mem_map.mp hx
      exact Or.inr (plain c hc).2
  | quoted quote content _ _ => exact solid_quoted content

theorem GroupSpan.map_fst_marked (s : GroupSpan) : s.marked.map Prod.fst = s.content := by
  cases s <;> simp [marked, GroupSpan.content, Function.comp_def]

/-- A group goes in front of the first group of what follows it. -/
theorem Group.groups_scan_append (g : Group) (rest : Text) :
    groups (scan (g.shown ++ rest)) = inFront g.content (groups (scan rest)) := by
  induction g with
  | nil =>
      obtain ⟨first, others, hrest⟩ := List.exists_cons_of_ne_nil (groups_ne_nil (scan rest))
      simp [Group.shown, Group.content, hrest, inFront]
  | cons s g ih =>
      have hshown : Group.shown (s :: g) ++ rest = s.shown ++ (Group.shown g ++ rest) := by
        simp [Group.shown]
      rw [hshown, scan, s.scanFrom_shown, groups_append_solid s.solid, ← scan, ih, inFront_inFront,
        s.map_fst_marked]
      rfl

/-! ## Tokens of groups -/

theorem not_isQuote_of_isSeparator {c : Char} (h : isSeparator c = true) : isQuote c = false := by
  rcases (by simpa [isSeparator] using h : c = ' ' ∨ c = '\t') with rfl | rfl <;> rfl

theorem groups_scan_separator {c : Char} (h : isSeparator c = true) (rest : Text) :
    groups (scan (c :: rest)) = [] :: groups (scan rest) := by
  simp [scan, scanFrom, not_isQuote_of_isSeparator h, groups, h]

theorem tokenize_run_append (h : IsRun run) (rest : Text) :
    tokenize (run ++ rest) = tokenize rest := by
  induction run with
  | nil => rfl
  | cons c run ih =>
      rw [List.cons_append, tokenize, groups_scan_separator (h c (by simp)),
        List.filter_cons_of_neg (by simp), ← tokenize, ih fun d hd => h d (by simp [hd])]

/-- A group that something other than a span follows is a token of its own. -/
theorem Group.tokenize_shown_append (g : Group) (h : IsRun run) (hne : t ≠ [] → run ≠ []) :
    tokenize (g.shown ++ run ++ t) = [g.content].filter (· ≠ []) ++ tokenize t := by
  rw [List.append_assoc, tokenize, g.groups_scan_append]
  cases run with
  | nil =>
      obtain rfl : t = [] := Classical.not_not.mp fun ht => hne ht rfl
      simp [scan, scanFrom, groups, inFront, tokenize]
  | cons c run =>
      have hrest : tokenize (run ++ t) = tokenize t :=
        tokenize_run_append (fun d hd => h d (by simp [hd])) t
      rw [List.cons_append, groups_scan_separator (h c (by simp)), ← hrest, tokenize, inFront,
        List.append_nil, ← List.singleton_append, List.filter_append]

theorem Spells.eq_nil (h : Spells [] t) : t = [] := by
  cases h
  rfl

theorem Spells.tokenize_eq (h : Spells gs t) :
    tokenize t = (gs.map Group.content).filter (· ≠ []) := by
  induction h with
  | nil => rfl
  | @group g gs run t hrun hne hrest ih =>
      have hbetween : t ≠ [] → run ≠ [] := fun ht =>
        hne fun hgs => ht (by subst hgs; exact hrest.eq_nil)
      rw [g.tokenize_shown_append hrun hbetween, ih, ← List.filter_append]
      rfl
  | @unclosed g quote content hquote hcontent =>
      have hscan : scan (quote :: content) = content.map (·, true) ++ [] := by
        rw [scan, scanFrom, if_pos hquote, scanFrom_unclosed hcontent, List.append_nil]
      rw [tokenize, Group.groups_scan_append, hscan, groups_append_solid (solid_quoted content)]
      simp [groups, inFront, Group.content, GroupSpan.content, Function.comp_def]

/-! ## Groups of a line -/

/-- Groups that hold a span each make up the line. -/
def Grouped (line : Text) : Prop :=
  ∃ gs : List Group, (∀ g ∈ gs, g ≠ []) ∧ SpellsLine gs line

/-- A span joins the group that it touches, and is a group of its own before a run. -/
theorem Grouped.span_append (s : GroupSpan) (h : Grouped t) : Grouped (s.shown ++ t) := by
  obtain ⟨gs, hfilled, run, t, hrun, hspells, rfl⟩ := h
  by_cases hempty : run = []
  · subst hempty
    cases hspells with
    | nil =>
        refine ⟨[[s]], by simp, [], s.shown, by simp [IsRun], ?_, by simp⟩
        simpa [Group.shown] using
          @Spells.group [s] [] [] [] (by simp [IsRun]) (by simp) .nil
    | @group g gs run t hbehind hne hrest =>
        refine ⟨(s :: g) :: gs, ?_, [], _, by simp [IsRun], .group hbehind hne hrest, ?_⟩
        · exact List.forall_mem_cons.mpr ⟨by simp, fun g' hg' => hfilled g' (by simp [hg'])⟩
        · simp [Group.shown]
    | @unclosed g quote content hquote hcontent =>
        refine ⟨[(s :: g) ++ [.quoted quote content hquote hcontent]], by simp, [], _,
          by simp [IsRun], .unclosed hquote hcontent, ?_⟩
        simp [Group.shown]
  · refine ⟨[s] :: gs, List.forall_mem_cons.mpr ⟨by simp, hfilled⟩, [], _, by simp [IsRun],
      .group hrun (fun _ => hempty) hspells, ?_⟩
    simp [Group.shown]

theorem Grouped.separator_cons {c : Char} (hc : isSeparator c = true) (h : Grouped t) :
    Grouped (c :: t) := by
  obtain ⟨gs, hfilled, run, t, hrun, hspells, rfl⟩ := h
  exact ⟨gs, hfilled, c :: run, t, List.forall_mem_cons.mpr ⟨hc, hrun⟩, hspells, rfl⟩

/-- Every text is made up of groups, and behind an open quote either nothing closes it or the rest
behind the closing quote is. -/
theorem grouped (t : Text) :
    Grouped t ∧ ∀ q, q ∉ t ∨ ∃ content rest, t = content ++ q :: rest ∧ q ∉ content ∧ Grouped rest := by
  induction t with
  | nil => exact ⟨⟨[], by simp, [], [], by simp [IsRun], .nil, rfl⟩, fun q => Or.inl (by simp)⟩
  | cons c t ih =>
      obtain ⟨ht, hspan⟩ := ih
      refine ⟨?_, fun q => ?_⟩
      · by_cases hsep : isSeparator c = true
        · exact ht.separator_cons hsep
        · by_cases hquote : isQuote c = true
          · rcases hspan c with hopen | ⟨content, rest, rfl, hcontent, hrest⟩
            · exact ⟨_, by simp, [], _, by simp [IsRun], .unclosed (g := []) hquote hopen, rfl⟩
            · simpa [GroupSpan.shown] using hrest.span_append (.quoted c content hquote hcontent)
          · exact ht.span_append (.bare [c] (by simp) (by simp [hsep, hquote]))
      · by_cases hq : q = c
        · subst hq
          exact Or.inr ⟨[], t, rfl, by simp, ht⟩
        · rcases hspan q with hopen | ⟨content, rest, rfl, hcontent, hrest⟩
          · exact Or.inl (by simp [hq, hopen])
          · exact Or.inr ⟨c :: content, rest, rfl, by simp [hq, hcontent], hrest⟩

/-- Every line is a row of groups, and however it is divided into groups, its tokens are the contents
of the groups that have any. -/
theorem tokenize_eq_contents (line : Text) :
    (∃ gs : List Group, (∀ g ∈ gs, g ≠ []) ∧ SpellsLine gs line)
      ∧ ∀ gs, SpellsLine gs line → tokenize line = (gs.map Group.content).filter (· ≠ []) := by
  refine ⟨(grouped line).1, ?_⟩
  rintro gs ⟨run, t, hrun, hspells, rfl⟩
  rw [tokenize_run_append hrun, hspells.tokenize_eq]

/-- Adjacent spans are one token, an empty one is none, and the last quote is not closed. -/
theorem tokenize_eq_contents_mixed :
    tokenize " a'b \"c'\t\"\" \"d 'e" = (["ab \"c", "d 'e"] : List Text) := by
  have hgroups : SpellsLine
      [[.bare ['a'] (by decide) (List.forall_mem_singleton.mpr (by decide)),
          .quoted '\'' "b \"c" (by decide) (by decide)],
        [.quoted '"' "" (by decide) (by decide)],
        [.quoted '"' "d 'e" (by decide) (by decide)]] " a'b \"c'\t\"\" \"d 'e" := by
    refine ⟨" ", "a'b \"c'\t\"\" \"d 'e", by decide, ?_, by decide⟩
    refine @Spells.group _ _ "\t" "\"\" \"d 'e" (by decide) (by simp) ?_
    refine @Spells.group _ _ " " "\"d 'e" (by decide) (by simp) ?_
    exact .unclosed (g := []) (by decide) (by decide)
  exact (tokenize_eq_contents _).2 _ hgroups

end PipeShell.Token
