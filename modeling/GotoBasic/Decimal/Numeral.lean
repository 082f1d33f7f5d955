/-
  Numerals: the texts that stand for numbers.

  After its characters are made plain and the blanks around it dropped, a
  numeral is an optional sign followed by `inf`, `infinity` or `nan` in any
  case, or by digits with an optional point and an optional exponent; a point
  needs a digit on one side at least.

  * `readDecimal`: the digits, point and exponent;
  * `Number.ofNumeral?`: the number nearest to a numeral;
  * `Number.ofGrouped?`: the same, where single underscores may stand between
    digits.
-/
import GotoBasic.Decimal.Layout
import GotoBasic.Text.Blank

namespace GotoBasic

namespace Numeral

/-- Splits off a sign; the flag tells whether it is a minus. -/
def splitSign : List Char → Bool × List Char
  | '-' :: cs => (true, cs)
  | '+' :: cs => (false, cs)
  | cs => (false, cs)

/-- The leading plain digits and the rest. -/
def splitDigits (cs : List Char) : List Char × List Char :=
  (cs.takeWhile Char.isDigit, cs.dropWhile Char.isDigit)

/-- The digits after a point, if there is one, and the rest. -/
def splitFraction : List Char → List Char × List Char
  | '.' :: cs => splitDigits cs
  | cs => ([], cs)

/-- The exponent that makes up the whole of the characters; none is zero. -/
def readExponent : List Char → Option Int
  | [] => some 0
  | c :: cs =>
    if c = 'e' ∨ c = 'E' then
      let (negative, ds) := splitSign cs
      if ds.isEmpty || !ds.all Char.isDigit then none
      else some (Number.signed negative (Nat.ofDigitChars 10 ds 0))
    else none

/-- The decimal that makes up the whole of the characters. -/
def readDecimal (cs : List Char) : Option Decimal :=
  let (whole, rest) := splitDigits cs
  let (fraction, rest) := splitFraction rest
  if whole.isEmpty && fraction.isEmpty then none
  else (readExponent rest).map fun e =>
    ⟨Nat.ofDigitChars 10 (whole ++ fraction) 0, e - fraction.length⟩

/-- The number that plain characters without blanks around them stand for. -/
def read (cs : List Char) : Option Number :=
  let (negative, body) := splitSign cs
  let word := body.map Char.toLower
  if word = "inf".toList ∨ word = "infinity".toList then some (.infinite negative)
  else if word = "nan".toList then some .nan
  else (readDecimal body).map (Decimal.toNumber negative)

/-- The plain characters of a text without the blanks around them. -/
def plain (s : String) : List Char := Text.trim (s.toList.map Text.plainChar)

/-- The characters without underscores that stand between two plain digits;
    `before` is the character in front of them. -/
def ungroup (before : Char) : List Char → List Char
  | '_' :: c :: cs =>
    if before.isDigit && c.isDigit then c :: ungroup c cs
    else '_' :: ungroup '_' (c :: cs)
  | c :: cs => c :: ungroup c cs
  | [] => []

end Numeral

/-- The number that a text stands for. -/
@[irreducible]
def Number.ofNumeral? (s : String) : Option Number := Numeral.read (Numeral.plain s)

/-- The number that a text stands for, digits being grouped by underscores. -/
@[irreducible]
def Number.ofGrouped? (s : String) : Option Number :=
  Numeral.read (Numeral.ungroup ' ' (Numeral.plain s))

end GotoBasic
