/-
  Indices that may be negative.

  * `Index.position? size i`: the position that the index `i` names among
    `size` items; a negative index counts from the end;
  * `Index.complaint i`: the wording of the complaint about an index that
    names no item.
-/

namespace GotoBasic.Index

/-- The position that an index names among `size` items. -/
def position? (size : Nat) (index : Int) : Option Nat :=
  let position := if index < 0 then index + size else index
  if 0 ≤ position ∧ position < size then some position.toNat else none

/-- An index that is not negative is the position it names. -/
theorem position?_natCast {size n : Nat} (h : n < size) : position? size n = some n := by
  have : ¬ (n : Int) < 0 := by omega
  simp [position?, this, h]

/-- Whether an index is a signed number of 64 bits. -/
def fitsWord (index : Int) : Bool := -0x8000000000000000 ≤ index && index < 0x8000000000000000

/-- The wording of the complaint about an index that names no item. -/
def complaint (index : Int) : String :=
  if fitsWord index then "list index out of range"
  else "cannot fit 'int' into an index-sized integer"

end GotoBasic.Index
