/-
  How numbers are written.

  * `Layout`: the decisions of a format, and `Layout.standard`, the one that
    printed numbers follow: positional from 10⁻⁴ up to below 10¹⁶, always with
    a digit after the point; otherwise scientific, the exponent with its sign
    and at least two digits;
  * `Layout.decimal`: a decimal in a layout;
  * `Number.toText`: the shortest decimal of a number in the standard layout.
-/
import GotoBasic.Decimal.Shortest

namespace GotoBasic

/-- The decisions of a decimal format. -/
structure Layout where
  /-- the least exponent of the leading digit that is written positionally -/
  lowest : Int
  /-- the first exponent of the leading digit that is too large for that -/
  limit : Int
  /-- the least number of digits of a written exponent -/
  exponentDigits : Nat
  nan : String
  infinity : String

/-- The format of printed numbers. -/
def Layout.standard : Layout where
  lowest := -4
  limit := 16
  exponentDigits := 2
  nan := "nan"
  infinity := "inf"

namespace Layout

/-- The decimal digits of `n`. -/
def digits (n : Nat) : List Char := Nat.toDigits 10 n

/-- The digits of `n`, filled up with zeros in front. -/
def padded (width n : Nat) : List Char :=
  List.replicate (width - (digits n).length) '0' ++ digits n

/-- Digits with a point after the first `whole` of them, and at least one
    digit after the point. -/
def pointed (ds : List Char) (whole : Nat) : List Char :=
  if ds.length ≤ whole then ds ++ List.replicate (whole - ds.length) '0' ++ ['.', '0']
  else ds.take whole ++ '.' :: ds.drop whole

/-- Positional form of the digits whose first one stands for `10 ^ e`. -/
def positional (ds : List Char) : Int → List Char
  | .ofNat e => pointed ds (e + 1)
  | .negSucc e => '0' :: '.' :: (List.replicate e '0' ++ ds)

/-- Scientific form of the digits whose first one stands for `10 ^ e`. -/
def scientific (l : Layout) (ds : List Char) (e : Int) : List Char :=
  let mantissa := match ds with
    | d :: [] => [d]
    | d :: ds => d :: '.' :: ds
    | [] => []
  mantissa ++ 'e' :: (if e < 0 then '-' else '+') :: padded l.exponentDigits e.natAbs

/-- The decimal in the layout; its coefficient is written without the zeros at
    its end. -/
def decimal (l : Layout) (d : Decimal) : List Char :=
  let all := digits d.coefficient
  let ds := (all.reverse.dropWhile (· == '0')).reverse
  let e := d.exponent + all.length - 1
  if l.lowest ≤ e ∧ e < l.limit then positional ds e else scientific l ds e

/-- The number in the layout. -/
def number (l : Layout) : Number → List Char
  | .nan => l.nan.toList
  | .infinite s => (if s then ['-'] else []) ++ l.infinity.toList
  | .finite s u _ =>
    (if s then ['-'] else []) ++ (if u = 0 then ['0', '.', '0'] else l.decimal (.shortest u))

end Layout

/-- The text of a number. -/
def Number.toText (x : Number) : String := String.ofList (Layout.standard.number x)

end GotoBasic
