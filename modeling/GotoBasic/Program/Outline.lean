/-
  Outlines: programs as JSON values, for an editor.

  A chain of operators is flattened: its leftmost operand, then each sign with
  the operand on its right, in the order of the text.  A part that is missing
  is left out of the outline of the part that should hold it.

  * `Expr.outline`, `Statement.outline`, `Program.outline`;
  * `Value.field`, `Expr.field`: a value or an expression as a field of the
    part that holds it.
-/
import GotoBasic.Program.Basic

namespace GotoBasic

/-- The outline of an atom, which is no part of a program. -/
def Atom.outline (a : Atom) : Json := .tagged "Unknown" [("value", .string a.toText)]

/-- The outline of a value. -/
def Value.outline : Value → Json
  | number x => .tagged "NumberValue" [("value", .number x)]
  | text s => .tagged "StringValue" [("value", .string s)]
  | stray item => item.outline

/-- The outline of a value as a field: atoms are copied. -/
def Value.field : Value → Option Json
  | stray item => item.field
  | v => some v.outline

/-- The outline of an item. -/
def Stray.outline : Stray → Json
  | atom item => item.outline
  | part _ outline => outline

/-- The outline of an item as a field: atoms are copied. -/
def Stray.field : Stray → Option Json
  | atom item => item.field
  | part _ outline => some outline

/-- A field that may be missing. -/
def optionalField (name : String) (json : Option Json) : List (String × Json) :=
  (json.map fun j => (name, j)).toList

namespace Expr

/-- The outline of a chain: `first` and, unless there is nothing, the `rest`. -/
def chain (first : Json) : List Json → Json
  | [] => first
  | rest => .tagged "BinaryOp" [("first", first), ("rest", .array rest)]

/-- The outline of an expression that is followed by the links `rest` of the
    chain around it. -/
def outlineChain : Expr → List Json → Json
  | literal v, rest => chain (.tagged "Literal" (optionalField "value" v.field)) rest
  | var name, rest => chain (.tagged "Variable" (optionalField "name" name.field)) rest
  | binary left sign right, rest =>
    outlineChain left
      (.object [("op", sign.toJson), ("right", outlineChain right [])] :: rest)
  | stray item, rest => chain item.outline rest

/-- The outline of an expression. -/
def outline (e : Expr) : Json := e.outlineChain []

/-- The outline of an expression as a field. -/
def field : Expr → Option Json
  | stray item => item.field
  | e => some e.outline

end Expr

namespace Statement

/-- The outline of a statement. -/
def outline : Statement → Json
  | assign name expr =>
    .tagged "AssignStatement" (optionalField "name" name.field ++ optionalField "expr" expr.field)
  | print expr => .tagged "PrintStatement" (optionalField "expr" expr.field)
  | goto label => .tagged "GotoStatement" (optionalField "label" label.field)
  | ifThen condition label =>
    .tagged "IfThenStatement"
      (optionalField "condition" condition.field ++ optionalField "label" label.field)
  | stray item => item.outline

end Statement

/-- The label table as a JSON value. -/
def Program.labelOutline (p : Program) : Json :=
  .object (p.labels.map fun (name, index) => (name, .integer index))

/-- The outline of a program whose statements and label table have the given
    outlines. -/
def Program.outlineOf (statements : List Json) (labels : Json) : Json :=
  .tagged "Program" [("statements", .array statements), ("labels", labels)]

/-- The outline of a program. -/
def Program.outline (p : Program) : Json :=
  outlineOf (p.statements.toList.map Statement.outline) p.labelOutline

end GotoBasic
