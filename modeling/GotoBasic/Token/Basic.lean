/-
  Tokens of a program text.

  * `Place`: a line and a column, in a text both counted from one;
  * `TokenKind` and its names;
  * `Token`: a kind, a text and the place where it starts, and
    `Token.description`, its wording in messages.
-/

namespace GotoBasic

/-- A line and a column. -/
structure Place where
  line : Int
  column : Int
  deriving DecidableEq

/-- `line:column`. -/
def Place.toText (p : Place) : String := toString p.line ++ ":" ++ toString p.column

/-- The kinds of tokens. -/
inductive TokenKind where
  | word
  | number
  | string
  | label
  /-- a line break -/
  | line
  | equals
  | operator
  | leftParen
  | rightParen
  /-- the end of the text -/
  | eof
  deriving DecidableEq

namespace TokenKind

/-- The name of a kind in messages. -/
def name : TokenKind → String
  | word => "WORD"
  | number => "NUMBER"
  | string => "STRING"
  | label => "LABEL"
  | line => "LINE"
  | equals => "EQUALS"
  | operator => "OPERATOR"
  | leftParen => "LEFT_PAREN"
  | rightParen => "RIGHT_PAREN"
  | eof => "EOF"

/-- All kinds. -/
def all : List TokenKind :=
  [word, number, string, label, line, equals, operator, leftParen, rightParen, eof]

/-- The kind with the given name. -/
def ofName? (s : String) : Option TokenKind := all.find? (·.name == s)

end TokenKind

/-- A token; the text of a string or label is without its marks. -/
structure Token where
  kind : TokenKind
  text : String
  place : Place
  deriving DecidableEq

/-- The wording of a token in messages. -/
def Token.description (t : Token) : String :=
  match t.kind with
  | .eof => "end of input"
  | .line => "line break"
  | kind => kind.name ++ "('" ++ t.text ++ "')"

end GotoBasic
