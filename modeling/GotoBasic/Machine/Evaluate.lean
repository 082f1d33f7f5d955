/-
  Evaluating expressions.

  Operator chains lean to the left and may be very long, so evaluation walks
  down the left side of an expression and keeps the operators and right
  operands that it passes for later (`Pending`).  When it reaches the leftmost
  operand it applies them in the order of the text.

  * `Expr.evaluate vars e`: the value of `e`, or the first failure from left
    to right; operands are evaluated before their operator is looked up.
-/
import GotoBasic.Program.Basic

namespace GotoBasic

/-- The values of variables. -/
abbrev Variables := Bindings Atom Value

/-- The value of a variable. -/
def Variables.value (vars : Variables) (name : Atom) : Value := (vars.get? name).getD .unset

/-- An operator sign and a right operand that is still to be evaluated. -/
structure Pending where
  sign : String
  right : Unit → Except RunError Value

/-- Applies the pending operators to a value, first to last. -/
def Pending.applyAll (left : Value) : List Pending → Except RunError Value
  | [] => .ok left
  | p :: later =>
    match p.right () with
    | .error e => .error e
    | .ok right =>
      match left.apply p.sign right with
      | .error e => .error e
      | .ok v => applyAll v later

namespace Expr

/-- The value of an expression to which the pending operators are applied. -/
def evaluateChain (vars : Variables) : Expr → List Pending → Except RunError Value
  | literal v, later => Pending.applyAll v later
  | var name, later => Pending.applyAll (vars.value name) later
  | binary left sign right, later =>
    evaluateChain vars left (⟨sign.toText, fun _ => evaluateChain vars right []⟩ :: later)
  | stray item, _ => .error (.notExpression item.kind)

/-- The value of an expression. -/
def evaluate (vars : Variables) (e : Expr) : Except RunError Value := evaluateChain vars e []

end Expr

end GotoBasic
