import PipeShell.Text.Basic

/-!
# Rounding to 53 bits

Quotients and decimals are rounded to the nearest number of 53 significant bits, and printed with a
fixed number of places; a tie goes to the even neighbour in both. The grid of such numbers is
numbered from zero, so that rounded numbers compare as natural numbers.
-/

namespace PipeShell.Number

/-- The quotient, rounded to the nearest natural number; a half goes to the even one. -/
def roundDiv (n d : Nat) : Nat :=
  let q := n / d
  let twice := 2 * (n % d)
  if twice < d then q else if d < twice then q + 1 else q + q % 2

/-- `mantissa * 2 ^ exponent`, with at most 53 bits or the next power of two as the mantissa. -/
structure Rounded where
  mantissa : Nat
  exponent : Int
  deriving DecidableEq, Repr

/-- The least exponent. -/
def minExponent : Int := -1074

/-- The number of the least power of two that is too large for the grid. -/
def infinity : Nat := 2047 <<< 52

namespace Rounded

/-- The numerator and denominator of a rounded number. -/
def fraction (r : Rounded) : Nat × Nat :=
  match r.exponent with
  | .ofNat e => (r.mantissa <<< e, 1)
  | .negSucc e => (r.mantissa, 1 <<< (e + 1))

/-- `n / d` divided by a power of two, as a fraction. -/
def scaled (n d : Nat) (exponent : Int) : Nat × Nat :=
  match exponent with
  | .ofNat e => (n, d <<< e)
  | .negSucc e => (n <<< (e + 1), d)

/-- The exponent at which `n / d` has 53 bits before the point, or the least one. -/
def exponentOf (n d : Nat) : Int :=
  let guess : Int := (n.log2 : Int) - d.log2 - 52
  let (a, b) := scaled n d guess
  let e := if a / b < 1 <<< 52 then guess - 1 else if 1 <<< 53 ≤ a / b then guess + 1 else guess
  max e minExponent

/-- The rounded number nearest to `n / d`. -/
def nearest (n d : Nat) : Rounded :=
  let e := exponentOf n d
  let (a, b) := scaled n d e
  ⟨roundDiv a b, e⟩

/-- The place of a rounded number on the grid; all that is too large shares one place. -/
def ordinal (r : Rounded) : Nat :=
  if r.mantissa = 0 then 0
  else min infinity (((r.exponent - minExponent).toNat <<< 52) + r.mantissa)

/-- The number is too large for the grid. -/
def isInfinite (r : Rounded) : Bool :=
  r.ordinal = infinity

end Rounded

/-- The place on the grid of the number nearest to `n / d`. -/
def gridPlace (n d : Nat) : Nat :=
  (Rounded.nearest n d).ordinal

/-- A rounded number with so many places after the point. -/
def fixed (places : Nat) (r : Rounded) : Text :=
  let (n, d) := r.fraction
  let shift := Nat.pow 10 places
  let units := roundDiv (n * shift) d
  let fractional := Text.ofNat (units % shift)
  Text.ofNat (units / shift) ++ "."
    ++ List.replicate (places - fractional.length) '0' ++ fractional

end PipeShell.Number
