/-
  Atoms: plain items.

  A program that was put together by hand may hold an atom where a value, an
  expression or a statement should stand, and any atom as a name.  Parsing
  yields no atoms but texts, as names and signs.

  * `Atom`, with its kind, its text and its JSON value;
  * `==`: whether two atoms are one and the same name;
  * `Atom.field`: an atom as a field of the part that holds it.
-/
import GotoBasic.Decimal.Layout
import GotoBasic.Json

namespace GotoBasic

/-- A plain item. -/
inductive Atom where
  | nothing
  | flag (b : Bool)
  | integer (n : Int)
  | number (x : Number)
  | text (s : String)
  deriving DecidableEq

namespace Atom

/-- What an atom is as a name: a flag counts as zero or one, and a number that
    is whole as that integer. -/
def key : Atom → Atom
  | flag b => integer (if b then 1 else 0)
  | number x => x.whole?.elim (number x) integer
  | a => a

/-- Two atoms are one name if they have the same key. -/
instance : BEq Atom := ⟨fun a b => decide (a.key = b.key)⟩

theorem beq_iff {a b : Atom} : (a == b) = true ↔ a.key = b.key := decide_eq_true_iff

instance : EquivBEq Atom where
  symm h := beq_iff.2 (beq_iff.1 h).symm
  trans h h' := beq_iff.2 ((beq_iff.1 h).trans (beq_iff.1 h'))
  rfl := beq_iff.2 rfl

/-- An atom as a JSON value. -/
def toJson : Atom → Json
  | nothing => .null
  | flag b => .bool b
  | integer n => .integer n
  | number x => .number x
  | text s => .string s

/-- The name of the kind of an atom. -/
def kind (a : Atom) : String := a.toJson.kind

/-- The text of an atom. -/
def toText : Atom → String
  | nothing => "None"
  | flag b => if b then "True" else "False"
  | integer n => toString n
  | number x => x.toText
  | text s => s

/-- An atom as a field; one that is nothing is left out. -/
def field : Atom → Option Json
  | nothing => none
  | a => some a.toJson

end Atom

end GotoBasic
