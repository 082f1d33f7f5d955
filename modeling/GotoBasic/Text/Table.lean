/-
  Character tables: a class of characters is a list of ranges of code points,
  in increasing order.

  * `Table.has t n` holds iff `n` lies in one of the ranges of `t`, provided
    the table is sorted; the search stops at the first range above `n`.
-/

namespace GotoBasic.Text

/-- Ranges of code points, both ends included, in increasing order. -/
abbrev Table := List (Nat × Nat)

/-- Whether a range of the table holds the code point `n`. -/
def Table.has : Table → Nat → Bool
  | [], _ => false
  | (first, last) :: higher, n =>
    if n < first then false else if n ≤ last then true else Table.has higher n

end GotoBasic.Text
