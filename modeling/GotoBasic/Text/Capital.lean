/-
  Capital forms of names that are written with the letters A to Z.

  * `capitals c`: the capital letters for `c`, where these are among A to Z;
    some characters beyond ASCII have such capitals, one or several;
  * `capitalized s`: `s` with each character in its capital form.
-/

namespace GotoBasic.Text

/-- The capital form of `c` if it consists of letters A to Z, else `c`. -/
def capitals (c : Char) : List Char :=
  if 'a' ≤ c ∧ c ≤ 'z' then [Char.ofNat (c.toNat - 32)]
  else match c with
    | 'ß' => ['S', 'S']
    | 'ı' => ['I']
    | 'ſ' => ['S']
    | 'ﬀ' => ['F', 'F']
    | 'ﬁ' => ['F', 'I']
    | 'ﬂ' => ['F', 'L']
    | 'ﬃ' => ['F', 'F', 'I']
    | 'ﬄ' => ['F', 'F', 'L']
    | 'ﬅ' => ['S', 'T']
    | 'ﬆ' => ['S', 'T']
    | _ => [c]

/-- The text in capitals; equal to a name in A to Z iff the text spells that
    name up to the case of its letters. -/
def capitalized (s : String) : String := String.ofList (s.toList.flatMap capitals)

end GotoBasic.Text
