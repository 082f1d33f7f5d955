/-
  Scanners: a place in a program text, and the characters from there on.

  * `closed cs`: the text with a line break at its end, unless it is empty;
  * `Scanner.ofText s`: the scanner at the start of the closed text;
  * `Scanner.advance`: moves over one character; past the end, position and
    column go on growing.
-/
import GotoBasic.Token.Basic

namespace GotoBasic

/-- A nonempty text ends with a line break. -/
def closed (cs : List Char) : List Char :=
  match cs.getLast? with
  | none => []
  | some c => if c = '\n' then cs else cs ++ ['\n']

/-- A place in a text: the characters to come, how many were passed, and the
    line and column. -/
structure Scanner where
  rest : List Char
  position : Nat
  place : Place

namespace Scanner

/-- The scanner at the start of a text. -/
def ofText (s : String) : Scanner := ⟨closed s.toList, 0, ⟨1, 1⟩⟩

/-- The place after the character `c` at `p`. -/
def placeAfter (c : Char) (p : Place) : Place :=
  if c = '\n' then ⟨p.line + 1, 1⟩ else ⟨p.line, p.column + 1⟩

/-- The scanner after the next character. -/
def advance (s : Scanner) : Scanner :=
  match s.rest with
  | [] => ⟨[], s.position + 1, ⟨s.place.line, s.place.column + 1⟩⟩
  | c :: cs => ⟨cs, s.position + 1, placeAfter c s.place⟩

/-- The scanner after `n` characters. -/
def advanceBy : Nat → Scanner → Scanner
  | 0, s => s
  | n + 1, s => advanceBy n s.advance

theorem rest_advance (s : Scanner) : s.advance.rest = s.rest.tail := by
  unfold advance; split <;> simp [*]

end Scanner

end GotoBasic
