/-
  Blanks around numerals, and the plain form of a numeral's characters.

  * `isBlank c`: one of the six blanks that may surround a numeral;
  * `plainChar c`: a blank of another script becomes a space and a decimal
    digit of another script the digit 0 to 9 of its value;
  * `trim cs`: `cs` without the blanks at its ends.
-/
import GotoBasic.Text.Digit

namespace GotoBasic.Text

/-- Space, tabulators, line feed, form feed and carriage return. -/
def isBlank (c : Char) : Bool :=
  c == ' ' || c == '\t' || c == '\n' || c == '\x0b' || c == '\x0c' || c == '\r'

/-- The ranges of blanks beyond ASCII. -/
def wideBlanks : Table :=
  [(0x0085, 0x0085), (0x00A0, 0x00A0), (0x1680, 0x1680), (0x2000, 0x200A), (0x2028, 0x2029),
   (0x202F, 0x202F), (0x205F, 0x205F), (0x3000, 0x3000)]

/-- A blank beyond ASCII as a space, a decimal digit as the digit 0 to 9 of
    its value, and any other character as it is. -/
def plainChar (c : Char) : Char :=
  if wideBlanks.has c.toNat then ' '
  else match decimalDigit? c with
    | some d => d.digitChar
    | none => c

/-- The characters without the blanks at both ends. -/
def trim (cs : List Char) : List Char :=
  ((cs.dropWhile isBlank).reverse.dropWhile isBlank).reverse

end GotoBasic.Text
