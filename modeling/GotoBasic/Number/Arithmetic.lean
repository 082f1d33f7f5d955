/-
  Arithmetic: each operation is exact, then rounded to the nearest number.

  * `Number.add`, `Number.sub`, `Number.mul`, `Number.div`: the operations of
    binary64 with their special cases; a division by zero gives a signed
    infinity, or `nan` if the dividend is zero or `nan` as well.
-/
import GotoBasic.Number.Round

namespace GotoBasic.Number

/-- The number with the opposite sign. -/
def neg : Number → Number
  | nan => nan
  | infinite s => infinite (!s)
  | finite s u h => finite (!s) u h

/-- The sum; zeros of opposite sign, and numbers that cancel, give the
    positive zero. -/
def add : Number → Number → Number
  | nan, _ | _, nan => nan
  | infinite s, infinite t => if s = t then infinite s else nan
  | infinite s, finite _ _ _ => infinite s
  | finite _ _ _, infinite t => infinite t
  | finite s u _, finite t v _ =>
    let sum := signed s u + signed t v
    if sum = 0 then zero (s && t) else ofQuotient (sum < 0) sum.natAbs 1

/-- The difference. -/
def sub (x y : Number) : Number := add x y.neg

/-- The product. -/
def mul : Number → Number → Number
  | nan, _ | _, nan => nan
  | infinite s, infinite t => infinite (s ^^ t)
  | infinite s, finite t v _ => if v = 0 then nan else infinite (s ^^ t)
  | finite s u _, infinite t => if u = 0 then nan else infinite (s ^^ t)
  | finite s u _, finite t v _ => ofQuotient (s ^^ t) (u * v) unitsPerOne

/-- The quotient. -/
def div : Number → Number → Number
  | nan, _ | _, nan => nan
  | infinite _, infinite _ => nan
  | infinite s, finite t _ _ => infinite (s ^^ t)
  | finite s _ _, infinite t => zero (s ^^ t)
  | finite s u _, finite t v _ =>
    if v = 0 then (if u = 0 then nan else infinite (s ^^ t))
    else ofQuotient (s ^^ t) (u * unitsPerOne) v

/-- The truth value of a comparison as a number. -/
def ofBool (b : Bool) : Number := if b then ofQuotient false unitsPerOne 1 else zero false

end GotoBasic.Number
