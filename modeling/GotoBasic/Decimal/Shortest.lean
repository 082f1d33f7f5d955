/-
  The shortest decimal that reads back as a given number.

  A magnitude of `units` is `units * 5 ^ 1074` times 10⁻¹⁰⁷⁴: on the finest
  grid that is needed, every magnitude is a whole number.  Coarser grids hold
  the multiples of `10 ^ n`.  From a grid that is coarser than the magnitude
  itself down to the finest one, the search takes the first grid on which one
  of the magnitude's two neighbours reads back.

  * `readsBack u c n`: `c` times `10 ^ n` on that scale rounds to `u` units;
  * `pick u n`: the neighbour on grid `n` that reads back, the nearer first;
  * `searchFrom f c n`: what `f` finds on the first grid from `n` down;
  * `shortest u`: the shortest decimal for `u` units.
-/
import GotoBasic.Decimal.Basic

namespace GotoBasic.Decimal

/-- The number of steps of 10⁻¹⁰⁷⁴ in one unit. -/
def fineness : Nat := Nat.pow 5 1074

/-- Whether `c` steps of the grid `n` round to `units`. -/
def readsBack (units c n : Nat) : Bool := roundUnits (c * Nat.pow 10 n) fineness == units

/-- The distance from `units` to the next number, in the finest steps. -/
def reach (units : Nat) : Nat := fineness * Nat.pow 2 (spacing units)

/-- The neighbours of `units` on the grid `n`: the nearest point, which is the
    even one of two, and the point on the other side.  None can read back if
    both are farther away than the next number. -/
def neighbours (units n : Nat) : List Nat :=
  let step := Nat.pow 10 n
  let above := units * fineness % step
  if above ≤ reach units ∨ step ≤ above + reach units then
    let near := nearest (units * fineness) step
    [near, 2 * (units * fineness / step) + 1 - near]
  else []

/-- A neighbour of `units` on the grid `n` that reads back. -/
def pick (units n : Nat) : Option Nat := (neighbours units n).find? (readsBack units · n)

/-- The point that `candidate` finds on the first grid from `n` down where it
    finds one; the finest grid holds the point `finest`. -/
def searchFrom (candidate : Nat → Option Nat) (finest : Nat) : Nat → Decimal
  | 0 => ⟨finest, -1074⟩
  | n + 1 =>
    match candidate (n + 1) with
    | some c => ⟨c, (n : Int) + 1 - 1074⟩
    | none => searchFrom candidate finest n

/-- A grid whose step exceeds the magnitude: `units` has at most
    `log2 * 30103 / 100000 + 2` decimal digits, and `fineness` has 751. -/
def coarsest (units : Nat) : Nat := units.log2 * 30103 / 100000 + 753

/-- The shortest decimal that reads back as `units`, the nearest of these. -/
def shortest (units : Nat) : Decimal :=
  searchFrom (pick units) (units * fineness) (coarsest units)

end GotoBasic.Decimal
