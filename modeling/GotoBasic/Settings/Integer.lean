/-
  Whole numbers in settings.

  A whole number is an optional sign and decimal digits of any script, with
  blanks around it; a single underscore may stand between two digits.

  * `Integer.read`: the number that a text spells, or why it spells none;
    more than `digitLimit` digits are refused.
-/
import GotoBasic.Decimal.Numeral
import GotoBasic.Text.Quoted

namespace GotoBasic

/-- Why a text spells no whole number. -/
inductive IntegerFault where
  | invalid (text : String)
  | tooManyDigits (digits : Nat)
  deriving DecidableEq

namespace IntegerFault

/-- The largest number of digits that is read. -/
def digitLimit : Nat := 4300

/-- The number of characters of a quoted text that a message shows. -/
def shownLimit : Nat := 200

/-- The wording of a fault. -/
def message : IntegerFault → String
  | invalid text =>
    "invalid literal for int() with base 10: " ++
      String.ofList ((Text.quoted text).toList.take shownLimit)
  | tooManyDigits digits =>
    "Exceeds the limit (" ++ toString digitLimit ++
      " digits) for integer string conversion: value has " ++ toString digits ++
      " digits; use sys.set_int_max_str_digits() to increase the limit"

end IntegerFault

namespace Integer

/-- Whether `c` may stand in a run of digits. -/
def inRun (c : Char) : Bool := c.isDigit || c == '_'

/-- Whether a run of digits and underscores has a digit on both sides of every
    underscore. -/
def wellGrouped (run : List Char) : Bool :=
  !run.isEmpty && (Numeral.ungroup ' ' run).all Char.isDigit

/-- The whole number that a text spells.  The length of the first run of
    digits is checked before what follows it. -/
def read (s : String) : Except IntegerFault Int :=
  let (negative, body) := Numeral.splitSign (Numeral.plain s)
  let run := body.takeWhile inRun
  let digits := run.filter Char.isDigit
  if !wellGrouped run then .error (.invalid s)
  else if IntegerFault.digitLimit < digits.length then .error (.tooManyDigits digits.length)
  else if run.length < body.length then .error (.invalid s)
  else .ok (Number.signed negative (Nat.ofDigitChars 10 digits 0))

end Integer

end GotoBasic
