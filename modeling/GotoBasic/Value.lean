/-
  Values and the operators on them.

  * `Value`: a number or a text, with `Value.toText` and `Value.toNumber`; a
    text that holds an underscore is never numeric, and an atom in the place
    of a value is neither text nor number;
  * `Operator`: the seven operators, named by their signs;
  * `RunError`: why a statement fails, and its wording;
  * `Value.apply`: an operator, given by its sign, on two values; a text on
    the left makes comparison and sum textual.
-/
import GotoBasic.Atom
import GotoBasic.Decimal.Numeral
import GotoBasic.Text.Quoted

namespace GotoBasic

/-- What variables hold and expressions give. -/
inductive Value where
  | number (x : Number)
  | text (s : String)
  /-- an atom in the place of a value -/
  | stray (item : Atom)
  deriving DecidableEq

/-- Why a statement fails. -/
inductive RunError where
  /-- a text that is no numeral is used as a number -/
  | notNumeric (text : String)
  | unknownOperator (sign : String)
  /-- an item of the given kind stands where an expression should -/
  | notExpression (kind : String)
  /-- an item of the given kind stands where a statement should -/
  | notStatement (index : Int) (kind : String)
  /-- an item of the given kind is used as a value, but lacks a conversion -/
  | lacks (kind conversion : String)
  deriving DecidableEq

/-- The name of the kind of a failure. -/
def RunError.name : RunError → String
  | .lacks _ _ => "AttributeError"
  | _ => "EvalError"

/-- The wording of a failure. -/
def RunError.message : RunError → String
  | .notNumeric text => "Cannot convert " ++ Text.quoted text ++ " to a number"
  | .unknownOperator sign => "Unknown operator: " ++ sign
  | .notExpression kind => "Invalid expression type: " ++ kind
  | .notStatement index kind => "Unknown statement at index " ++ toString index ++ ": " ++ kind
  | .lacks kind conversion => lacksMessage kind conversion

namespace Value

/-- The number of a truth value. -/
def ofBool (b : Bool) : Value := .number (.ofBool b)

/-- The value of a variable that was never set. -/
def unset : Value := .number (.zero false)

/-- The text that is printed for a value. -/
def toText : Value → Except RunError String
  | number x => .ok x.toText
  | text s => .ok s
  | stray item => .error (.lacks item.kind "to_text")

/-- The number that a text stands for, if it is a numeral without
    underscores. -/
def numberOfText? (s : String) : Option Number :=
  if s.toList.contains '_' then none else Number.ofNumeral? s

/-- The value as a number. -/
def toNumber : Value → Except RunError Number
  | number x => .ok x
  | text s =>
    match numberOfText? s with
    | some x => .ok x
    | none => .error (.notNumeric s)
  | stray item => .error (.lacks item.kind "to_number")

/-- Equality of values of the same kind, numbers by `Number.equals`. -/
def equals : Value → Value → Bool
  | number x, number y => x.equals y
  | text s, text t => s == t
  | stray a, stray b => a == b
  | _, _ => false

end Value

/-- An operator between two expressions. -/
inductive Operator where
  | equal
  | plus
  | minus
  | times
  | divided
  | less
  | greater
  deriving DecidableEq

namespace Operator

/-- The sign of an operator. -/
def sign : Operator → String
  | equal => "="
  | plus => "+"
  | minus => "-"
  | times => "*"
  | divided => "/"
  | less => "<"
  | greater => ">"

/-- All operators. -/
def all : List Operator := [equal, plus, minus, times, divided, less, greater]

/-- The operator with the given sign. -/
def ofSign? (s : String) : Option Operator := all.find? (·.sign == s)

/-- A numeric operation on both operands, the left one converted first. -/
def arithmetic (f : Number → Number → Number) (left right : Value) : Except RunError Value := do
  let x ← left.toNumber
  let y ← right.toNumber
  return .number (f x y)

/-- A comparison: textual if the left operand is a text, else numeric. -/
def comparison (texts : String → String → Bool) (numbers : Number → Number → Bool) :
    Value → Value → Except RunError Value
  | .text s, right => do
    let t ← right.toText
    return .ofBool (texts s t)
  | left, right => do
    let x ← left.toNumber
    let y ← right.toNumber
    return .ofBool (numbers x y)

/-- The sum: texts are joined if the left operand is one, else numbers
    added. -/
def sum : Value → Value → Except RunError Value
  | .text s, right => do
    let t ← right.toText
    return .text (s ++ t)
  | left, right => arithmetic Number.add left right

/-- The operator on two values. -/
def apply : Operator → Value → Value → Except RunError Value
  | equal => comparison (· == ·) Number.equals
  | plus => sum
  | minus => arithmetic Number.sub
  | times => arithmetic Number.mul
  | divided => arithmetic Number.div
  | less => comparison (fun s t => s < t) Number.less
  | greater => comparison (fun s t => t < s) (fun x y => y.less x)

end Operator

/-- The operator with the given sign on two values. -/
def Value.apply (sign : String) (left right : Value) : Except RunError Value :=
  match Operator.ofSign? sign with
  | some op => op.apply left right
  | none => .error (.unknownOperator sign)

end GotoBasic
