import PipeShell.Proofs.Terminal.Keys

/-!
# The forms of keys

A key is a character or a whole escape sequence. An input that is made of whole keys is split into
just these keys, also when it ends in the middle of an escape sequence.
-/

namespace PipeShell.Keys

variable {c : Char} {t tail key rest : Text} {keys : List Text}

/-- The forms of a whole key: a character, a control sequence with parameters and a final character,
ESC `O` and a character, or ESC and another character. -/
inductive Whole : Text → Prop
  | single (c : Char) : c ≠ esc → Whole [c]
  | control (parameters : Text) (final : Char) :
      (∀ p ∈ parameters, p.isDigit = true ∨ p = ';' ∨ p = '?') → '@' ≤ final → final ≤ '~' →
      Whole (esc :: '[' :: (parameters ++ [final]))
  | shifted (c : Char) : Whole [esc, 'O', c]
  | escaped (c : Char) : c ≠ '[' → c ≠ 'O' → Whole [esc, c]

/-- The escape sequences in the middle of which an input can end. -/
inductive CutOff : Text → Prop
  | escape : CutOff [esc]
  | control : CutOff [esc, '[']
  | shifted : CutOff [esc, 'O']

/-! ## Characters of control sequences -/

theorem isParameter_iff : isParameter c = true ↔ c.isDigit = true ∨ c = ';' ∨ c = '?' := by
  simp [isParameter, Char.isDigit, or_assoc, Char.le_def]

theorem isFinal_iff : isFinal c = true ↔ '@' ≤ c ∧ c ≤ '~' := by
  simp [isFinal]

/-! ## One key at a time -/

/-- The characters that follow the first one of a key end it, whatever comes next. -/
theorem split_append_of_following (h : following c (tail ++ t) = tail.length) :
    split (c :: tail ++ t) = (c :: tail) :: split t := by
  rw [List.cons_append, split_cons, h, List.take_left, List.drop_left]

/-- A whole key is split off, whatever comes after it. -/
theorem Whole.split_append (h : Whole key) (t : Text) : split (key ++ t) = key :: split t := by
  cases h with
  | single c hc => exact split_append_of_following (by simp [following, hc])
  | control parameters final hp hlow hhigh =>
      have hlength : controlLength? (parameters ++ [final] ++ t) = some (parameters.length + 1) :=
        controlLength?_eq_some.mpr ⟨parameters, final, t, by simp,
          fun p hmem => isParameter_iff.mpr (hp p hmem), isFinal_iff.mpr ⟨hlow, hhigh⟩, rfl⟩
      refine split_append_of_following ?_
      simp only [following, beq_self_eq_true, if_true, List.cons_append, escapeLength, hlength]
      simp [Nat.add_comm]
  | shifted c => exact split_append_of_following rfl
  | escaped c hbracket hletter =>
      refine split_append_of_following ?_
      simp [following, escapeLength, hletter]

theorem CutOff.split (h : CutOff rest) : split rest = [rest] := by
  cases h <;> rfl

theorem split_flatten_append (h : ∀ key ∈ keys, Whole key) (t : Text) :
    split (keys.flatten ++ t) = keys ++ split t := by
  induction keys with
  | nil => rfl
  | cons key keys ih =>
      obtain ⟨hkey, hkeys⟩ := List.forall_mem_cons.mp h
      rw [List.flatten_cons, List.append_assoc, hkey.split_append, ih hkeys, List.cons_append]

/-! ## All keys of an input -/

/-- What is split off an input is a whole key, or the start of an escape sequence. -/
theorem whole_or_cutOff (c : Char) (t : Text) :
    Whole (c :: t.take (following c t)) ∨ CutOff (c :: t.take (following c t)) := by
  by_cases hc : c = esc
  · subst hc
    rw [following, if_pos (beq_self_eq_true esc)]
    cases t with
    | nil => exact .inr .escape
    | cons d t =>
        by_cases hbracket : d = '['
        · subst hbracket
          cases hlength : controlLength? t with
          | none => simpa [escapeLength, hlength] using Or.inr CutOff.control
          | some k =>
              obtain ⟨parameters, final, rest, rfl, hp, hf, rfl⟩ :=
                controlLength?_eq_some.mp hlength
              obtain ⟨hlow, hhigh⟩ := isFinal_iff.mp hf
              have htake : (parameters ++ final :: rest).take (parameters.length + 1)
                  = parameters ++ [final] := by
                rw [show parameters ++ final :: rest = parameters ++ [final] ++ rest by simp,
                  List.take_left' (by simp)]
              have hwhole : Whole (esc :: '[' :: (parameters ++ [final])) :=
                .control parameters final (fun p hmem => isParameter_iff.mp (hp p hmem)) hlow hhigh
              refine .inl ?_
              simpa [escapeLength, hlength, Nat.add_comm 1, htake] using hwhole
        · by_cases hletter : d = 'O'
          · subst hletter
            cases t with
            | nil => exact .inr .shifted
            | cons d t => exact .inl (.shifted d)
          · simpa [escapeLength, hbracket, hletter] using Or.inl (Whole.escaped d hbracket hletter)
  · rw [following, if_neg (by simpa using hc), List.take_zero]
    exact .inl (.single c hc)

theorem whole_or_cutOff_of_mem (h : key ∈ split t) : Whole key ∨ CutOff key := by
  induction t using split_induction with
  | nil => cases h
  | key c t ih =>
      rw [split_cons] at h
      rcases List.mem_cons.mp h with rfl | h
      · exact whole_or_cutOff c t
      · exact ih h

theorem head?_of_form (h : Whole key ∨ CutOff key) :
    key ≠ [] ∧ (1 < key.length → key.head? = some esc) := by
  rcases h with h | h
  · cases h <;> simp
  · cases h <;> simp

/-! ## Splitting -/

/-- Every input is split without loss into keys, of which only escape sequences have several
characters. Whole keys in a row are split into just these keys, also when an input ends behind them
in the middle of an escape sequence. -/
theorem split_keeps_keys :
    (∀ t, (split t).flatten = t
        ∧ ∀ key ∈ split t, key ≠ [] ∧ (1 < key.length → key.head? = some esc))
      ∧ ∀ keys : List Text, (∀ key ∈ keys, Whole key) →
        split keys.flatten = keys
          ∧ ∀ rest, CutOff rest → split (keys.flatten ++ rest) = keys ++ [rest] := by
  refine ⟨fun t => ⟨flatten_split t, fun key hkey => head?_of_form (whole_or_cutOff_of_mem hkey)⟩,
    fun keys hkeys => ⟨?_, fun rest hrest => ?_⟩⟩
  · simpa using split_flatten_append hkeys []
  · rw [split_flatten_append hkeys, hrest.split]

/-- A letter, a control sequence with parameters, ESC `O` and a line feed, and two ESC, with the
start of a control sequence behind them. -/
theorem split_cut_off_control :
    (∀ key ∈ [['a'], esc :: '[' :: ("1;5" ++ ['~']), [esc, 'O', '\n'], [esc, esc]], Whole key)
      ∧ CutOff [esc, '[']
      ∧ split "a\x1b[1;5~\x1bO\n\x1b\x1b\x1b["
        = [['a'], esc :: '[' :: ("1;5" ++ ['~']), [esc, 'O', '\n'], [esc, esc], [esc, '[']] := by
  have hwhole : ∀ key ∈ [['a'], esc :: '[' :: ("1;5" ++ ['~']), [esc, 'O', '\n'], [esc, esc]],
      Whole key := by
    simp only [List.forall_mem_cons]
    exact ⟨.single 'a' (by decide), .control "1;5" '~' (by simp) (by decide) (by decide),
      .shifted '\n', .escaped esc (by decide) (by decide), by simp⟩
  exact ⟨hwhole, .control, (split_keeps_keys.2 _ hwhole).2 _ .control⟩

end PipeShell.Keys
