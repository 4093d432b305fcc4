import PipeShell.Text.Basic

/-!
# Numbers in front of texts

A decimal numeral can be read off the front of a text, if what follows does not start with a digit.
-/

namespace PipeShell.Text

/-- The number that the decimal digits in front of a text write, and what follows them. -/
def numberInFront (t : Text) : Nat × Text :=
  (Nat.ofDigitChars 10 (t.takeWhile Char.isDigit) 0, t.dropWhile Char.isDigit)

theorem isDigit_of_mem_ofNat {n : Nat} {c : Char} (h : c ∈ ofNat n) : c.isDigit = true :=
  Nat.isDigit_of_mem_toDigits (by simp) (by simp) h

theorem ofNat_ne_nil (n : Nat) : ofNat n ≠ [] :=
  Nat.toDigits_ne_nil

theorem numberInFront_ofNat_append (n : Nat) {t : Text} (h : ∀ c ∈ t.head?, c.isDigit = false) :
    numberInFront (ofNat n ++ t) = (n, t) := by
  have hdigits : ∀ c ∈ ofNat n, c.isDigit = true := fun _ => isDigit_of_mem_ofNat
  have hvalue : Nat.ofDigitChars 10 (ofNat n) 0 = n := Nat.ofDigitChars_toDigits (by simp) (by simp)
  have htake : t.takeWhile Char.isDigit = [] := by
    cases t with
    | nil => rfl
    | cons c t => exact List.takeWhile_cons_of_neg (by simp [h c rfl])
  have hdrop : t.dropWhile Char.isDigit = t := by
    cases t with
    | nil => rfl
    | cons c t => exact List.dropWhile_cons_of_neg (by simp [h c rfl])
  rw [numberInFront, List.takeWhile_append_of_pos hdigits, List.dropWhile_append_of_pos hdigits,
    htake, hdrop, List.append_nil, hvalue]

end PipeShell.Text
