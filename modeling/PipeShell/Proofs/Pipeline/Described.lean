import PipeShell.Proofs.Args.Settings
import PipeShell.Proofs.Number.Front
import PipeShell.Proofs.Pipeline.Joined
import PipeShell.Proofs.Text.Literal

/-!
# Descriptions read back

The description of a pipeline that was read from a line can be read back: its stages, their
arguments under their keys and in their order, and every value as it was. So pipelines with the same
description are the same, whatever the texts in them are.
-/

namespace PipeShell

open Text (quoted quoted? numberInFront)

/-! ## Values -/

namespace Value

/-- What comes behind a value does not go on with a digit. -/
def Ends (rest : Text) : Prop :=
  ∀ c ∈ rest.head?, c.isDigit = false

theorem ends_cons {c : Char} {rest : Text} (h : c.isDigit = false) : Ends (c :: rest) := by
  simpa [Ends] using h

/-- A value as a literal: a text in quotes, a row of such texts in brackets, "yes" or "no", or a
decimal numeral. -/
def literal? : FrontReader Value
  | [] => none
  | c :: t =>
      if c = '\'' ∨ c = '"' then (quoted? (c :: t)).map (Prod.map .text id)
      else if c = '[' then (FrontReader.closedRow ", " ']' quoted? t).map (Prod.map .texts id)
      else if c = 'T' then (t.dropPrefix? "rue").map (.flag true, ·)
      else if c = 'F' then (t.dropPrefix? "alse").map (.flag false, ·)
      else if c = '-' then
        let (n, rest) := numberInFront t
        some (.number (-n), rest)
      else if c.isDigit then
        let (n, rest) := numberInFront (c :: t)
        some (.number n, rest)
      else none

theorem exists_quoted (t : Text) :
    ∃ quote w, quoted t = quote :: w ∧ (quote = '\'' ∨ quote = '"') :=
  ⟨_, _, rfl, Text.quoteFor_eq t⟩

theorem ne_of_isDigit {c d : Char} (hc : c.isDigit = true) (hd : d.isDigit = false) : c ≠ d := by
  rintro rfl
  rw [hc] at hd
  cases hd

/-- Every value is read back from how it stands in a description. -/
theorem readsBack_render (v : Value) : literal?.ReadsBack Ends render v := by
  intro rest hrest
  -- The first character tells the kind: a quote, a sign, a digit, a letter or a bracket.
  cases v with
  | text t =>
      obtain ⟨quote, w, hw, hquote⟩ := exists_quoted t
      have hread : quoted? (quote :: (w ++ rest)) = some (t, rest) := by
        rw [← List.cons_append, ← hw]
        exact Text.readsBack_quoted t rest trivial
      rw [render, hw, List.cons_append, literal?, if_pos hquote, hread]
      rfl
  | number n =>
      cases n with
      | ofNat n =>
          obtain ⟨d, ds, hd⟩ := List.exists_cons_of_ne_nil (Text.ofNat_ne_nil n)
          have hdigit : d.isDigit = true := Text.isDigit_of_mem_ofNat (n := n) (by simp [hd])
          have hne {c : Char} (hc : c.isDigit = false) : d ≠ c := ne_of_isDigit hdigit hc
          have hfront : numberInFront (d :: (ds ++ rest)) = (n, rest) := by
            rw [← List.cons_append, ← hd]
            exact Text.numberInFront_ofNat_append n hrest
          rw [render, Text.ofInt, hd, List.cons_append, literal?,
            if_neg (not_or.mpr ⟨hne rfl, hne rfl⟩), if_neg (hne rfl), if_neg (hne rfl),
            if_neg (hne rfl), if_neg (hne rfl), if_pos hdigit, hfront]
          rfl
      | negSucc n =>
          have hfront : numberInFront (Text.ofNat (n + 1) ++ rest) = (n + 1, rest) :=
            Text.numberInFront_ofNat_append (n + 1) hrest
          have hread : literal? ('-' :: (Text.ofNat (n + 1) ++ rest))
              = some (.number (-(n + 1 : Nat)), rest) := by
            simp [literal?, hfront]
          exact hread
  | flag b =>
      cases b with
      | false => exact congrArg (Option.map _) (FrontReader.dropPrefix?_append "alse" rest)
      | true => exact congrArg (Option.map _) (FrontReader.dropPrefix?_append "rue" rest)
  | texts ts =>
      have hopen : ∀ t ∈ ts, quoted t ≠ [] ∧ (quoted t).head? ≠ some ']' := by
        intro t _
        obtain ⟨quote, w, hw, hquote⟩ := exists_quoted t
        rw [hw]
        refine ⟨List.cons_ne_nil _ _, ?_⟩
        rcases hquote with rfl | rfl <;> simp
      have hrow : FrontReader.closedRow ", " ']' quoted?
          (Text.join ", " (ts.map quoted) ++ ']' :: rest) = some (ts, rest) :=
        FrontReader.closedRow_join (fun t _ => Text.readsBack_quoted t) (fun _ => trivial)
          (fun _ => trivial) (by decide) (by decide) hopen rest
      have hwritten : render (.texts ts) ++ rest
          = '[' :: (Text.join ", " (ts.map quoted) ++ ']' :: rest) := by
        simp [render]
      rw [hwritten, literal?, if_neg (by decide), if_pos rfl, hrow]
      rfl

theorem printable_render (v : Value) : v.render.Printable := by
  cases v with
  | text t => exact Text.printable_quoted t
  | number n => exact Text.printable_ofInt n
  | flag b => cases b <;> decide
  | texts ts =>
      have hrow : (Text.join ", " (ts.map quoted)).Printable :=
        Text.printable_join_map (by decide) fun t _ => Text.printable_quoted t
      have hrender : render (.texts ts) = '[' :: (Text.join ", " (ts.map quoted) ++ [']']) := by
        simp [render]
      rw [hrender, Text.printable_cons, Text.printable_append]
      exact ⟨by decide, hrow, Text.printable_cons.mpr ⟨by decide, Text.printable_nil⟩⟩

end Value

/-! ## Stages -/

namespace Key

theorem ofName_of_known : ∀ key ∈ known, ofName key.name = key := by
  decide

theorem name_of_known :
    ∀ key ∈ known, key.name ≠ [] ∧ '=' ∉ key.name ∧ key.name.head? ≠ some ')' := by
  decide

theorem printable_name : ∀ key ∈ known, key.name.Printable := by
  decide

end Key

namespace Verb

theorem ofWord?_word (v : Verb) : ofWord? v.word = some v := by
  cases v <;> decide

theorem not_mem_word (v : Verb) : '(' ∉ v.word := by
  cases v <;> decide

theorem printable_word (v : Verb) : v.word.Printable := by
  cases v <;> decide

end Verb

namespace Stage

/-- An argument as `key=value`. -/
def argument (arg : Key × Value) : Text :=
  arg.1.name ++ '=' :: arg.2.render

/-- Reads an argument. -/
def argument? : FrontReader (Key × Value) := fun t => do
  let (name, t) ← FrontReader.upTo '=' t
  let (value, t) ← Value.literal? t
  return ((Key.ofName name, value), t)

/-- Reads a verb with its arguments in parentheses. -/
def stage? : FrontReader Stage := fun t => do
  let (word, t) ← FrontReader.upTo '(' t
  let verb ← Verb.ofWord? word
  let (args, t) ← FrontReader.closedRow ", " ')' argument? t
  return (⟨verb, args⟩, t)

theorem describe_eq (s : Stage) :
    s.describe = s.verb.word ++ '(' :: (Text.join ", " (s.args.map argument) ++ [')']) := by
  have hargument : argument = fun arg => arg.1.name ++ '=' :: arg.2.render := rfl
  simp [describe, hargument]

theorem readsBack_argument {arg : Key × Value} (h : arg.1 ∈ Key.known) :
    argument?.ReadsBack Value.Ends argument arg := by
  intro rest hrest
  have hname := FrontReader.upTo_append (Key.name_of_known _ h).2.1 (arg.2.render ++ rest)
  have hvalue := Value.readsBack_render arg.2 rest hrest
  rw [argument, List.append_assoc, List.cons_append, argument?, hname]
  simp [hvalue, Key.ofName_of_known _ h]

theorem argument_open {arg : Key × Value} (h : arg.1 ∈ Key.known) :
    argument arg ≠ [] ∧ (argument arg).head? ≠ some ')' := by
  obtain ⟨hne, -, hhead⟩ := Key.name_of_known _ h
  obtain ⟨c, w, hw⟩ := List.exists_cons_of_ne_nil hne
  rw [hw] at hhead
  rw [argument, hw]
  exact ⟨List.cons_ne_nil _ _, hhead⟩

/-- A stage whose keys are known is read back, whatever comes behind. -/
theorem readsBack_describe {s : Stage} (h : s.args.Known) :
    stage?.ReadsBack (fun _ => True) describe s := by
  intro rest _
  have hword := FrontReader.upTo_append s.verb.not_mem_word
    (Text.join ", " (s.args.map argument) ++ ')' :: rest)
  have hargs : FrontReader.closedRow ", " ')' argument?
      (Text.join ", " (s.args.map argument) ++ ')' :: rest) = some (s.args, rest) :=
    FrontReader.closedRow_join (fun arg harg => readsBack_argument (h arg harg))
      (fun _ => Value.ends_cons (by decide)) (fun _ => Value.ends_cons (by decide)) (by decide)
      (by decide) (fun arg harg => argument_open (h arg harg)) rest
  have hwritten : s.describe ++ rest
      = s.verb.word ++ '(' :: (Text.join ", " (s.args.map argument) ++ ')' :: rest) := by
    simp [describe_eq]
  simp only [hwritten, stage?, hword, Verb.ofWord?_word, hargs, Option.bind_eq_bind,
    Option.bind_some]
  rfl

theorem printable_argument {arg : Key × Value} (h : arg.1 ∈ Key.known) :
    (argument arg).Printable := by
  rw [argument, Text.printable_append, Text.printable_cons]
  exact ⟨Key.printable_name _ h, by decide, arg.2.printable_render⟩

theorem printable_describe {s : Stage} (h : s.args.Known) : s.describe.Printable := by
  have hargs : (Text.join ", " (s.args.map argument)).Printable :=
    Text.printable_join_map (by decide) fun arg harg => printable_argument (h arg harg)
  rw [describe_eq, Text.printable_append, Text.printable_cons, Text.printable_append]
  exact ⟨s.verb.printable_word, by decide, hargs,
    Text.printable_cons.mpr ⟨by decide, Text.printable_nil⟩⟩

end Stage

/-! ## Pipelines -/

namespace Pipeline

variable {line : Text} {p : Pipeline}

/-- The stages that a description names. -/
def stages? (t : Text) : Option (List Stage) :=
  match FrontReader.row " | " Stage.stage? t with
  | some (stages, []) => some stages
  | _ => none

theorem known_of_reads {segment : Text} {stage : Stage} (h : Reads segment stage) :
    stage.args.Known := by
  rw [Reads, readStage?] at h
  split at h
  · cases h
  · split at h
    · cases h
    · rename_i name tokens _ _ verb hverb
      cases hargs : Args.parse verb tokens with
      | error f => simp [hargs] at h
      | ok args =>
          obtain rfl : (⟨verb, args⟩ : Stage) = stage := by simpa [hargs] using h
          exact Args.known_of_parse hargs

theorem known_of_forall₂_reads {segments : List Text} {stages : List Stage}
    (h : List.Forall₂ Reads segments stages) : ∀ stage ∈ stages, stage.args.Known := by
  induction h with
  | nil => simp
  | cons hread _ ih => exact List.forall_mem_cons.mpr ⟨known_of_reads hread, ih⟩

theorem known_of_runnable (h : read line = .ok p) (hp : p.isRunnable = true) :
    ∀ stage ∈ p.stages, stage.args.Known :=
  known_of_forall₂_reads (reads_of_runnable h hp).2.1

theorem stages?_describe (hp : p.isRunnable = true)
    (h : ∀ stage ∈ p.stages, stage.args.Known) : stages? p.describe = some p.stages := by
  have hne : p.stages ≠ [] := by
    intro hnil
    simp [isRunnable, hnil] at hp
  have hrow : FrontReader.row " | " Stage.stage?
      (Text.join " | " (p.stages.map Stage.describe) ++ []) = some (p.stages, []) :=
    FrontReader.row_join (fun stage hstage => Stage.readsBack_describe (h stage hstage))
      (fun _ => trivial) trivial (by decide) hne
  rw [List.append_nil] at hrow
  rw [describe, if_pos hp, stages?, hrow]

theorem printable_describe (h : ∀ stage ∈ p.stages, stage.args.Known) : p.describe.Printable := by
  rw [describe]
  split
  · exact Text.printable_join_map (by decide) fun stage hstage =>
      Stage.printable_describe (h stage hstage)
  · exact Text.printable_nil

/-- The description of a runnable line is printable and names its stages: they can be read back from
it, as can each of their values from the literal that stands for it. So two runnable lines have the
same description only if they have the same stages. -/
theorem describe_reads_back (h : read line = .ok p) (hp : p.isRunnable = true) :
    stages? p.describe = some p.stages
      ∧ (∀ stage ∈ p.stages, ∀ arg ∈ stage.args,
        Value.literal? arg.2.render = some (arg.2, []))
      ∧ p.describe.Printable
      ∧ ∀ line' p', read line' = .ok p' → p'.isRunnable = true →
        (p.describe = p'.describe ↔ p.stages = p'.stages) := by
  have hknown := known_of_runnable h hp
  have hstages := stages?_describe hp hknown
  refine ⟨hstages, fun stage _ arg _ => ?_, printable_describe hknown,
    fun line' p' h' hp' => ⟨fun heq => ?_, fun heq => ?_⟩⟩
  · simpa using arg.2.readsBack_render [] (by simp [Value.Ends])
  · have hstages' := stages?_describe hp' (known_of_runnable h' hp')
    rw [← heq, hstages] at hstages'
    exact Option.some.inj hstages'
  · rw [describe, describe, if_pos hp, if_pos hp', heq]

/-- Quotes, separators and control characters in texts are no quotes and separators of the
description. -/
theorem describe_reads_back_separators :
    stages? "cat(paths=[\"a', 'b\", 'c']) | head(lines=5) | grep(pattern=')\\t| y')" = some
        [⟨.concatenate, [(.paths, .texts ["a', 'b", "c"])]⟩, ⟨.head, [(.lines, .number 5)]⟩,
          ⟨.search, [(.pattern, .text ")\t| y")]⟩]
      ∧ describe ⟨[⟨.concatenate, [(.paths, .texts ["a', 'b", "c"])]⟩], true, none⟩
        ≠ describe ⟨[⟨.concatenate, [(.paths, .texts ["a", "b", "c"])]⟩], true, none⟩ := by
  have hline : read "cat \"a', 'b\" c | head -5 | grep ')\t| y'" = .ok
      { stages := [⟨.concatenate, [(.paths, .texts ["a', 'b", "c"])]⟩,
          ⟨.head, [(.lines, .number 5)]⟩, ⟨.search, [(.pattern, .text ")\t| y")]⟩]
        isPipeline := true } := rfl
  have hmarks : read "cat \"a', 'b\" c" = .ok
      ⟨[⟨.concatenate, [(.paths, .texts ["a', 'b", "c"])]⟩], true, none⟩ := rfl
  have hplain : read "cat a b c" = .ok
      ⟨[⟨.concatenate, [(.paths, .texts ["a", "b", "c"])]⟩], true, none⟩ := rfl
  refine ⟨(describe_reads_back hline rfl).1, fun heq => ?_⟩
  have hstages := ((describe_reads_back hmarks rfl).2.2.2 _ _ hplain rfl).mp heq
  revert hstages
  decide

end Pipeline

end PipeShell
