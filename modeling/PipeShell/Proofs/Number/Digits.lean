import PipeShell.Number.Numeral
import PipeShell.Proofs.Store.Action

/-!
# Long numerals

Which texts are numerals, and that only the number of their digits keeps them from being read.
-/

namespace PipeShell.Numeral

variable {t : Text} {n : Nat}

/-- The text is a numeral of `n` digits, which one line feed may follow. -/
def HasDigits (t : Text) (n : Nat) : Prop :=
  ∃ digits : Text, (t = digits ∨ t = digits ++ ['\n'])
    ∧ digits ≠ [] ∧ (∀ c ∈ digits, Text.isDigit c = true) ∧ digits.length = n

/-- The text is a numeral with more digits than a reader accepts. -/
def TooLong (t : Text) : Prop :=
  ∃ n, maxDigits < n ∧ HasDigits t n

/-- The failure of a reader that was given too many digits. -/
def IsTooMany (f : Failure) : Prop :=
  ∃ n, maxDigits < n ∧ f = .tooManyDigits n

/-! ## Digits -/

theorem mapM_digitValue?_iff :
    (∃ digits, t.mapM Text.digitValue? = some digits ∧ digits.length = n)
      ↔ (∀ c ∈ t, Text.isDigit c = true) ∧ t.length = n := by
  induction t generalizing n with
  | nil => simp
  | cons c t ih =>
      rw [List.mapM_cons]
      cases hc : Text.digitValue? c with
      | none => simp [Text.isDigit, hc]
      | some d =>
          have hdigit : Text.isDigit c = true := by simp [Text.isDigit, hc]
          cases n with
          | zero => cases hrest : t.mapM Text.digitValue? <;> simp
          | succ n =>
              rw [List.length_cons, Nat.add_right_cancel_iff, List.forall_mem_cons, and_assoc, ← ih]
              cases hrest : t.mapM Text.digitValue? <;> simp [hdigit]

theorem digits?_iff :
    (∃ digits, digits? t = some digits ∧ digits.length = n)
      ↔ t ≠ [] ∧ (∀ c ∈ t, Text.isDigit c = true) ∧ t.length = n := by
  rw [← mapM_digitValue?_iff, digits?]
  split
  · rename_i h
    simp [h]
  · rename_i h
    simp [h]

/-- Without the line feed that may follow it, a numeral has digits only. -/
theorem hasDigits_iff :
    HasDigits t n ↔ ∃ digits, lineDigits? t = some digits ∧ digits.length = n := by
  rw [lineDigits?, digits?_iff]
  constructor
  · rintro ⟨digits, rfl | rfl, hne, hall, hlength⟩
    · have hlast : t.getLast? ≠ some '\n' := fun h =>
        absurd (hall _ (List.mem_of_getLast? h)) (by decide)
      rw [if_neg hlast]
      exact ⟨hne, hall, hlength⟩
    · rw [if_pos List.getLast?_concat, List.dropLast_concat]
      exact ⟨hne, hall, hlength⟩
  · split
    · rename_i hlast
      obtain ⟨digits, rfl⟩ := List.getLast?_eq_some_iff.mp hlast
      rw [List.dropLast_concat]
      rintro ⟨hne, hall, hlength⟩
      exact ⟨digits, .inr rfl, hne, hall, hlength⟩
    · rintro ⟨hne, hall, hlength⟩
      exact ⟨t, .inl rfl, hne, hall, hlength⟩

/-! ## Reading -/

theorem tooLong_iff :
    TooLong t ↔ ∃ digits, lineDigits? t = some digits ∧ Attempt.Fails (read digits) := by
  simp only [TooLong, hasDigits_iff, read]
  constructor
  · rintro ⟨_, hlong, digits, hdigits, rfl⟩
    exact ⟨digits, hdigits, by simp [Nat.not_le.mpr hlong]⟩
  · rintro ⟨digits, hdigits, hfails⟩
    refine ⟨digits.length, Nat.lt_of_not_le fun hshort => ?_, digits, hdigits, rfl⟩
    simp [hshort] at hfails

theorem gives_read (digits : List Nat) :
    Attempt.Gives (read digits) (fun _ => True) IsTooMany := by
  rw [read]
  split
  · exact trivial
  · rename_i hlong
    exact ⟨_, Nat.not_le.mp hlong, rfl⟩

theorem fails_count? : Attempt.Fails (count? t) ↔ TooLong t := by
  rw [tooLong_iff, count?]
  cases lineDigits? t <;> simp

theorem gives_count? (t : Text) : Attempt.Gives (count? t) (fun _ => True) IsTooMany := by
  rw [count?]
  split
  · exact trivial
  · exact (gives_read _).bind fun _ _ => trivial

end PipeShell.Numeral
