import PipeShell.Pipeline.Reader
import PipeShell.Proofs.Store.Action
import PipeShell.Proofs.Text.Within

/-!
# The characters of arguments

The arguments that a line gives to its stages are made of the characters of the line, and of the
spaces that join several tokens into one text.
-/

namespace PipeShell

variable {A : Char → Prop}

/-! ## Tokens -/

namespace Token

variable {opened : Option Char} {t token segment : Text}

theorem subset_of_mem_segments (h : segment ∈ segmentsFrom opened t) : segment ⊆ t := by
  induction t generalizing opened segment with
  | nil =>
      obtain rfl : segment = [] := by simpa [segmentsFrom] using h
      exact List.nil_subset _
  | cons c t ih =>
      rw [segmentsFrom] at h
      split at h
      · rcases List.mem_cons.mp h with rfl | h
        · exact List.nil_subset _
        · exact List.subset_cons_of_subset c (ih h)
      · split at h
        · obtain rfl := List.mem_singleton.mp h
          simp
        · rename_i first rest hs
          rcases List.mem_cons.mp h with rfl | h
          · exact List.cons_subset_cons c (ih (by rw [hs]; simp))
          · exact List.subset_cons_of_subset c (ih (by rw [hs]; simp [h]))

theorem map_fst_scanFrom_subset (opened : Option Char) (t : Text) :
    (scanFrom opened t).map Prod.fst ⊆ t := by
  induction t generalizing opened with
  | nil => cases opened <;> simp [scanFrom]
  | cons c t ih =>
      have hskip (opened : Option Char) : (scanFrom opened t).map Prod.fst ⊆ c :: t :=
        List.subset_cons_of_subset c (ih opened)
      cases opened with
      | none =>
          rw [scanFrom]
          split
          · exact hskip _
          · exact List.cons_subset_cons c (ih none)
      | some q =>
          rw [scanFrom]
          split
          · exact hskip _
          · exact List.cons_subset_cons c (ih (some q))

theorem subset_of_mem_groups {xs : List (Char × Bool)} {group : Text} (h : group ∈ groups xs) :
    group ⊆ xs.map Prod.fst := by
  induction xs generalizing group with
  | nil =>
      obtain rfl : group = [] := by simpa [groups] using h
      exact List.nil_subset _
  | cons x xs ih =>
      obtain ⟨c, quoted⟩ := x
      rw [groups] at h
      split at h
      · rcases List.mem_cons.mp h with rfl | h
        · exact List.nil_subset _
        · exact List.subset_cons_of_subset c (ih h)
      · split at h
        · obtain rfl := List.mem_singleton.mp h
          simp
        · rename_i first rest hs
          rcases List.mem_cons.mp h with rfl | h
          · exact List.cons_subset_cons c (ih (by rw [hs]; simp))
          · exact List.subset_cons_of_subset c (ih (by rw [hs]; simp [h]))

theorem subset_of_mem_tokenize (h : token ∈ tokenize t) : token ⊆ t :=
  List.Subset.trans (subset_of_mem_groups (List.mem_filter.mp h).1) (map_fst_scanFrom_subset none t)

end Token

/-! ## Arguments -/

/-- Every text in the value is made of such characters. -/
def Value.Within (A : Char → Prop) : Value → Prop
  | .text t => t.Within A
  | .texts ts => ∀ t ∈ ts, t.Within A
  | .number _ | .flag _ => True

namespace Args

/-- Every text in the arguments is made of such characters. -/
def Within (A : Char → Prop) (args : Args) : Prop :=
  ∀ arg ∈ args, arg.2.Within A

variable {args : Args} {tokens : List Text} {key : Key} {value : Value} {t : Text}

theorem within_nil : Args.Within A [] := by
  simp [Within]

theorem Within.set (h : args.Within A) (hv : value.Within A) : (args.set key value).Within A := by
  induction args with
  | nil => simpa [Args.set, Within] using hv
  | cons arg rest ih =>
      obtain ⟨harg, hrest⟩ := List.forall_mem_cons.mp h
      rw [Args.set]
      split
      · exact List.forall_mem_cons.mpr ⟨hv, hrest⟩
      · exact List.forall_mem_cons.mpr ⟨harg, ih hrest⟩

theorem within_operands (h : ∀ t ∈ tokens, t.Within A) : ∀ t ∈ operands tokens, t.Within A :=
  fun t ht => h t (List.mem_filter.mp ht).1

theorem Within.fill {keys : List Key} (ha : args.Within A) (ht : ∀ t ∈ tokens, t.Within A) :
    (fill keys tokens args).Within A := by
  induction keys generalizing tokens args with
  | nil => simpa [Args.fill] using ha
  | cons key keys ih =>
      cases tokens with
      | nil => simpa [Args.fill] using ha
      | cons t tokens =>
          obtain ⟨ht, hrest⟩ := List.forall_mem_cons.mp ht
          exact ih (ha.set ht) hrest

theorem within_pathOrPaths (ht : ∀ t ∈ tokens, t.Within A) : (pathOrPaths tokens).Within A := by
  have hoperands := within_operands ht
  unfold pathOrPaths
  split
  · exact within_nil
  · rename_i path hone
    rw [hone] at hoperands
    simpa [Within, Value.Within] using hoperands
  · simpa [Within, Value.Within] using hoperands

theorem within_pathList (ht : ∀ t ∈ tokens, t.Within A) : (pathList tokens).Within A := by
  unfold pathList
  split
  · exact within_nil
  · simpa [Within, Value.Within] using within_operands ht

theorem Within.foldl {step : Args → Text → Args}
    (hstep : ∀ args t, args.Within A → (step args t).Within A) (ha : args.Within A)
    (tokens : List Text) : Args.Within A (tokens.foldl step args) := by
  induction tokens generalizing args with
  | nil => exact ha
  | cons t tokens ih => exact ih (hstep args t ha)

theorem within_mark (table : List (Text × Key)) (tokens : List Text) :
    (mark table tokens).Within A := by
  refine within_nil.foldl (fun args t ha => ?_) tokens
  split
  · exact ha.set trivial
  · exact ha

theorem within_countFlags (tokens : List Text) : (countFlags tokens).Within A := by
  refine within_nil.foldl (fun args t ha => ?_) tokens
  split
  · exact ha
  · refine Within.set ?_ trivial
    split
    · simp [Within, Value.Within]
    · exact ha

theorem within_searchFlags {found : List Text} (ha : args.Within A)
    (ht : ∀ t ∈ tokens, t.Within A) (hf : ∀ t ∈ found, t.Within A) :
    (searchFlags tokens args found).1.Within A
      ∧ ∀ t ∈ (searchFlags tokens args found).2, t.Within A := by
  have hadd {t : Text} {found : List Text} (ht : t.Within A) (hf : ∀ u ∈ found, u.Within A) :
      ∀ u ∈ found ++ [t], u.Within A := by
    intro u hu
    rcases List.mem_append.mp hu with hu | hu
    · exact hf u hu
    · exact List.mem_singleton.mp hu ▸ ht
  fun_induction searchFlags tokens args found with
  | case1 args found => exact ⟨ha, hf⟩
  | case2 t args found hcase => exact ⟨ha.set trivial, hf⟩
  | case3 t args found _ hcase => exact ⟨ha.set trivial, hf⟩
  | case4 t args found _ _ hflag => exact ⟨ha, hf⟩
  | case5 t args found _ _ hflag => exact ⟨ha, hadd (ht t (by simp)) hf⟩
  | case6 t next rest args found hcase ih =>
      exact ih (ha.set trivial) (fun u hu => ht u (by simp [hu])) hf
  | case7 t next rest args found _ hcase ih =>
      exact ih (ha.set trivial) (fun u hu => ht u (by simp [hu])) hf
  | case8 t next rest args found _ _ hcase ih =>
      exact ih (ha.set (ht next (by simp))) (fun u hu => ht u (by simp [hu])) hf
  | case9 t next rest args found _ _ _ hflag ih =>
      exact ih ha (fun u hu => ht u (by simp [hu])) hf
  | case10 t next rest args found _ _ _ hflag ih =>
      exact ih ha (fun u hu => ht u (by simp [hu])) (hadd (ht t (by simp)) hf)

theorem within_setLines (ha : args.Within A) (token : Text) :
    Attempt.Gives (setLines token args) (Within A) fun _ => True := by
  unfold setLines
  refine Attempt.Gives.bind (P := fun _ => True) (Attempt.gives_of (fun _ _ => trivial) fun _ _ => trivial)
    fun count _ => ?_
  cases count with
  | none => exact ha
  | some n => exact ha.set trivial

theorem within_lineRangeToken (ha : args.Within A) (ht : t.Within A) :
    Attempt.Gives (lineRangeToken t args) (Within A) fun _ => True := by
  unfold lineRangeToken
  split
  · refine Attempt.Gives.bind (P := fun _ => True)
      (Attempt.gives_of (fun _ _ => trivial) fun _ _ => trivial) fun n _ => ?_
    exact ha.set trivial
  · split
    · exact ha
    · split
      · exact within_setLines ha t
      · exact ha.set ht

theorem within_lineRange (ha : args.Within A) (ht : ∀ t ∈ tokens, t.Within A) :
    Attempt.Gives (lineRange tokens args) (Within A) fun _ => True := by
  fun_induction lineRange tokens args with
  | case1 args => exact ha
  | case2 t args => exact within_lineRangeToken ha (ht t (by simp))
  | case3 t next rest args hcase ih =>
      exact (within_setLines ha next).bind fun args ha =>
        ih args ha fun u hu => ht u (by simp [hu])
  | case4 t next rest args hcase ih =>
      exact (within_lineRangeToken ha (ht t (by simp))).bind fun args ha =>
        ih args ha fun u hu => ht u (by simp [hu])

theorem within_writing (hspace : A ' ') (ha : args.Within A) (ht : ∀ t ∈ tokens, t.Within A) :
    (writing tokens args).Within A := by
  induction tokens generalizing args with
  | nil => exact ha
  | cons t rest ih =>
      obtain ⟨ht, hrest⟩ := List.forall_mem_cons.mp ht
      rw [writing]
      split
      · refine ih ?_ hrest
        split
        · exact ha.set trivial
        · exact ha
      · have hpath : (args.set .path (.text t)).Within A := ha.set ht
        dsimp only
        split
        · exact hpath
        · exact hpath.set (Text.within_join (by simpa using hspace) hrest)

theorem within_parse (hspace : A ' ') (verb : Verb) (ht : ∀ t ∈ tokens, t.Within A) :
    Attempt.Gives (parse verb tokens) (Within A) fun _ => True := by
  have hoperands := within_operands ht
  have hslots : (flagsAndSlots (flagTable verb) (slots verb) tokens).Within A :=
    (within_mark _ _).fill hoperands
  unfold parse
  split
  · exact within_pathOrPaths ht
  · exact within_pathList ht
  · have hnone : ∀ t ∈ ([] : List Text), t.Within A := by simp
    obtain ⟨hargs, hfound⟩ := within_searchFlags within_nil ht hnone
    exact hargs.fill hfound
  · exact within_lineRange within_nil ht
  · exact within_lineRange within_nil ht
  · exact (within_countFlags tokens).fill hoperands
  · refine Attempt.gives_ok ?_
    split
    · exact within_nil
    · simpa [Within, Value.Within] using Text.within_join (by simpa using hspace) ht
  · exact within_writing hspace within_nil ht
  · exact hslots

end Args

/-! ## Stages -/

namespace Pipeline

theorem within_readStage (hspace : A ' ') {segment : Text} (hs : segment.Within A) :
    Attempt.Gives (readStage? segment) (fun r => ∀ stage ∈ r, stage.args.Within A) fun _ => True := by
  unfold readStage?
  split
  · simp [Attempt.Gives]
  · rename_i name tokens htokens
    split
    · simp [Attempt.Gives]
    · have htoken : ∀ t ∈ tokens, t.Within A := fun t ht =>
        (hs.subset (Text.strip_subset segment)).subset
          (Token.subset_of_mem_tokenize (by rw [htokens]; simp [ht]))
      refine (Args.within_parse hspace _ htoken).bind fun args ha => ?_
      simpa [Attempt.Gives] using ha

theorem within_readStages (hspace : A ' ') {segments : List Text}
    (hs : ∀ segment ∈ segments, segment.Within A) :
    Attempt.Gives (readStages segments)
      (fun r => ∀ stages, r = .ok stages → ∀ stage ∈ stages, stage.args.Within A) fun _ => True := by
  induction segments with
  | nil =>
      rintro stages ⟨⟩
      simp
  | cons segment rest ih =>
      obtain ⟨hsegment, hrest⟩ := List.forall_mem_cons.mp hs
      rw [readStages]
      refine (within_readStage hspace hsegment).bind fun r hr => ?_
      cases r with
      | none =>
          rintro stages ⟨⟩
      | some stage =>
          refine (ih hrest).bind fun r hr' => ?_
          cases r with
          | error bad => rintro stages ⟨⟩
          | ok stages =>
              rintro _ ⟨⟩
              exact List.forall_mem_cons.mpr ⟨hr stage rfl, hr' stages rfl⟩

theorem within_commandSegments {line : Text} (hline : line.Within A) :
    ∀ segment ∈ commandSegments line, segment.Within A := by
  intro segment hs
  obtain ⟨piece, hpiece, rfl⟩ := List.mem_map.mp (List.mem_filter.mp hs).1
  refine Text.Within.subset ?_ (Text.strip_subset piece)
  exact (hline.subset (Text.strip_subset line)).subset (Token.subset_of_mem_segments hpiece)

theorem stages_ofStages (stages : List Stage) : (ofStages stages).stages ⊆ stages := by
  unfold ofStages
  split
  · simp
  · split <;> simp

theorem within_read (hspace : A ' ') {line : Text} (hline : line.Within A) {p : Pipeline}
    (h : read line = .ok p) : ∀ stage ∈ p.stages, stage.args.Within A := by
  unfold read at h
  split at h
  · have hread := within_readStages hspace (within_commandSegments hline)
    cases hr : readStages (commandSegments line) with
    | error f => simp [hr] at h
    | ok r =>
        rw [hr, Attempt.ok_bind] at h
        cases r with
        | error segment =>
            cases h
            simp
        | ok stages =>
            cases h
            exact fun stage hmem => hread.given hr stages rfl stage (stages_ofStages stages hmem)
  · cases h
    simp

end Pipeline

end PipeShell
