import PipeShell.Proofs.Number.Front
import PipeShell.Proofs.Text.Within
import PipeShell.Text.Printable

/-!
# Printable texts

A text is printable when all of its characters are. Printable texts stay printable when they are put
together, and the plain part of the characters, numerals among them, is printable.
-/

namespace PipeShell

/-- Every character of the text is printable. -/
def Text.Printable (t : Text) : Prop :=
  ∀ c ∈ t, isPrintable c = true

instance (t : Text) : Decidable t.Printable :=
  List.decidableBAll (fun c => Text.isPrintable c = true) t

namespace Text

variable {c : Char} {t u sep : Text}

@[simp] theorem printable_nil : Printable [] :=
  within_nil

@[simp] theorem printable_cons : Printable (c :: t) ↔ isPrintable c = true ∧ t.Printable :=
  within_cons

@[simp] theorem printable_append : (t ++ u).Printable ↔ t.Printable ∧ u.Printable :=
  within_append

theorem printable_join_map {α : Type} {write : α → Text} {as : List α} (hsep : sep.Printable)
    (h : ∀ a ∈ as, (write a).Printable) : (join sep (as.map write)).Printable :=
  within_join hsep (List.forall_mem_map.mpr h)

/-! ## Plain characters -/

/-- Between the first two places where printability changes, all characters are printable. -/
theorem isPrintable_of_ascii (hlow : 32 ≤ c.toNat) (hhigh : c.toNat < 127) :
    isPrintable c = true := by
  rw [isPrintable, printableFlips, inFlips, if_neg (by omega), inFlips, if_pos hhigh]
  rfl

theorem isPrintable_of_isDigit (h : c.isDigit = true) : isPrintable c = true := by
  simp only [Char.isDigit, Bool.and_eq_true, decide_eq_true_eq, ge_iff_le] at h
  have hlow : 48 ≤ c.toNat := UInt32.le_iff_toNat_le.mp h.1
  have hhigh : c.toNat ≤ 57 := UInt32.le_iff_toNat_le.mp h.2
  exact isPrintable_of_ascii (by omega) (by omega)

theorem printable_ofNat (n : Nat) : (ofNat n).Printable :=
  fun _ hc => isPrintable_of_isDigit (isDigit_of_mem_ofNat hc)

theorem printable_ofInt (n : Int) : (ofInt n).Printable := by
  cases n with
  | ofNat n => exact printable_ofNat n
  | negSucc n => exact printable_cons.mpr ⟨by decide, printable_ofNat (n + 1)⟩

end Text

end PipeShell
