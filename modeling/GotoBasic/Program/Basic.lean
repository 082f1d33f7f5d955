/-
  Programs: statements in order, and labels that mark places between them.

  * `Expr`: literals, variables and operator signs between expressions;
  * `Statement`: assignment, printing, jump and conditional jump;
  * `Program`: the statements, and for each label the index of the statement
    that follows it.

  A program that was put together by hand may hold an item where an
  expression or a statement should stand (`Stray`), and its names and signs
  may be any atoms.  Parsing yields no such item, and only texts as names.
-/
import GotoBasic.Bindings
import GotoBasic.Value

namespace GotoBasic

/-- An item that stands in the place of an expression or statement. -/
inductive Stray where
  | atom (item : Atom)
  /-- another part of a program, with its kind and its outline -/
  | part (kind : String) (outline : Json)

/-- The name of the kind of an item. -/
def Stray.kind : Stray → String
  | atom item => item.kind
  | part kind _ => kind

/-- An expression. -/
inductive Expr where
  | literal (value : Value)
  | var (name : Atom)
  | binary (left : Expr) (sign : Atom) (right : Expr)
  | stray (item : Stray)

/-- A statement. -/
inductive Statement where
  /-- gives a variable the value of an expression -/
  | assign (name : Atom) (expr : Expr)
  /-- prints the value of an expression -/
  | print (expr : Expr)
  /-- goes on at a label -/
  | goto (label : Atom)
  /-- goes on at a label unless the condition is zero -/
  | ifThen (condition : Expr) (label : Atom)
  | stray (item : Stray)

/-- A program. -/
structure Program where
  statements : Array Statement
  labels : Bindings String Int

/-- The program without statements. -/
def Program.empty : Program := ⟨#[], []⟩

/-- The index that a label marks. -/
def Program.target? (p : Program) : Atom → Option Int
  | .text label => p.labels.get? label
  | _ => none

end GotoBasic
