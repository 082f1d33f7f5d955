/-
  Numbers: the binary64 numbers, seen exactly.

  A finite magnitude is counted in units of 2⁻¹⁰⁷⁴, the smallest positive one,
  so it is a natural number; the magnitudes are the naturals `m * 2 ^ q` with
  `m < 2 ^ 53` and `q ≤ 2045` (`IsMagnitude`).

  * `Number`: not a number, a signed infinity, or a signed magnitude;
  * `Number.position`: where a number lies on the line, in units, infinities
    beyond all finite ones;
  * `Number.equals` and `Number.less`: the comparisons; nothing compares with
    `nan`, and the two zeros are equal;
  * `Number.whole?`: the integer that a number is.
-/

namespace GotoBasic

/-- `units` is the magnitude of a finite number. -/
def IsMagnitude (units : Nat) : Prop :=
  ∃ m q, m < Nat.pow 2 53 ∧ q ≤ 2045 ∧ units = m * Nat.pow 2 q

theorem isMagnitude_zero : IsMagnitude 0 := ⟨0, 0, by decide, by decide, by decide⟩

/-- A binary64 number. -/
inductive Number where
  /-- the result of an undefined operation -/
  | nan
  /-- an infinity -/
  | infinite (negative : Bool)
  /-- `units` times 2⁻¹⁰⁷⁴ with a sign; zero has both signs -/
  | finite (negative : Bool) (units : Nat) (magnitude : IsMagnitude units)
  deriving DecidableEq

namespace Number

/-- The zero with the given sign. -/
def zero (negative : Bool) : Number := .finite negative 0 isMagnitude_zero

instance : Inhabited Number := ⟨zero false⟩

/-- The first whole number of units beyond the finite magnitudes. -/
def beyond : Nat := Nat.pow 2 (53 + 2045)

/-- An integer with the given sign and absolute value. -/
def signed (negative : Bool) (n : Nat) : Int := if negative then -(n : Int) else n

/-- The place of a number on the line, in units. -/
def position : Number → Option Int
  | nan => none
  | infinite s => some (signed s beyond)
  | finite s u _ => some (signed s u)

/-- Equality of numbers: `nan` equals nothing, the zeros are equal. -/
def equals (x y : Number) : Bool :=
  match x.position, y.position with
  | some a, some b => a == b
  | _, _ => false

/-- Order of numbers: nothing is below or above `nan`. -/
def less (x y : Number) : Bool :=
  match x.position, y.position with
  | some a, some b => a < b
  | _, _ => false

/-- Whether the number is one of the zeros. -/
def isZero (x : Number) : Bool := x.position == some 0

/-- The number of units in one. -/
def unitsPerOne : Nat := Nat.pow 2 1074

/-- The integer that a number is, if it is one. -/
def whole? : Number → Option Int
  | finite s u _ => if u % unitsPerOne = 0 then some (signed s (u / unitsPerOne)) else none
  | _ => none

end Number

end GotoBasic
