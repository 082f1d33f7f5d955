/-
  Quoted texts, as they appear in messages.

  * `quoteMark s`: single quotes, unless `s` holds a single quote and no
    double one;
  * `escape q c`: the quote and the backslash get a backslash, line breaks and
    tabulators their letter, other unprintable characters their code point in
    two, four or eight hexadecimal digits;
  * `quoted s`: `s` escaped between its quote marks.
-/
import GotoBasic.Text.Printable

namespace GotoBasic.Text

/-- The last `k` hexadecimal digits of `n`, the most significant first. -/
def hexDigits : Nat → Nat → List Char
  | 0, _ => []
  | k + 1, n => hexDigits k (n / 16) ++ [Nat.digitChar (n % 16)]

/-- The mark that encloses the quoted form of `s`. -/
def quoteMark (s : String) : Char :=
  if s.toList.contains '\'' && !s.toList.contains '"' then '"' else '\''

/-- The code point of an unprintable character. -/
def escapeCode (n : Nat) : List Char :=
  if n < 0x100 then '\\' :: 'x' :: hexDigits 2 n
  else if n < 0x10000 then '\\' :: 'u' :: hexDigits 4 n
  else '\\' :: 'U' :: hexDigits 8 n

/-- How `c` is written between the marks `q`. -/
def escape (q c : Char) : List Char :=
  if c = q ∨ c = '\\' then ['\\', c]
  else if c = '\n' then ['\\', 'n']
  else if c = '\r' then ['\\', 'r']
  else if c = '\t' then ['\\', 't']
  else if isPrintable c then [c]
  else escapeCode c.toNat

/-- The quoted form of `s`. -/
def quoted (s : String) : String :=
  let q := quoteMark s
  String.ofList (q :: s.toList.flatMap (escape q) ++ [q])

end GotoBasic.Text
