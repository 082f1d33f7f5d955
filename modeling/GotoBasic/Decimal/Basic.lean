/-
  Decimals: a coefficient times a power of ten.

  * `Decimal.round s d`: the number with sign `s` nearest to `d`, computed
    exactly;
  * `Decimal.toNumber s d`: the same number, without computing powers of ten
    when `d` is plainly too large or too small.
-/
import GotoBasic.Number.Arithmetic

namespace GotoBasic

/-- `coefficient` times ten to the `exponent`. -/
structure Decimal where
  coefficient : Nat
  exponent : Int

namespace Decimal

/-- The number with the given sign nearest to the decimal. -/
def round (negative : Bool) (d : Decimal) : Number :=
  match d.exponent with
  | .ofNat k => .ofQuotient negative (d.coefficient * Nat.pow 10 k * Number.unitsPerOne) 1
  | .negSucc k => .ofQuotient negative (d.coefficient * Number.unitsPerOne) (Nat.pow 10 (k + 1))

/-- At 10³¹⁰ and above, a decimal exceeds the largest number. -/
def isHuge (d : Decimal) : Bool := d.coefficient ≠ 0 ∧ 310 ≤ d.exponent

/-- Below 2⁻¹¹⁰⁰, a decimal is nearest to zero; ten is above eight. -/
def isTiny (d : Decimal) : Bool :=
  d.coefficient = 0 ∨ (d.coefficient.log2 : Int) + 1 + 3 * d.exponent < -1100 ∧ d.exponent < 0

/-- The number with the given sign nearest to the decimal. -/
def toNumber (negative : Bool) (d : Decimal) : Number :=
  if d.isHuge then .infinite negative
  else if d.isTiny then .zero negative
  else d.round negative

end Decimal

end GotoBasic
