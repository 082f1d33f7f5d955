/-
  What can be wrong with a program text.

  * `Complaint`: what is wrong at a token;
  * `ParseError`: a complaint with the token it is about;
    `ParseError.message` is its wording.
-/
import GotoBasic.Program.Basic
import GotoBasic.Token.Basic

namespace GotoBasic

/-- What is wrong at a token. -/
inductive Complaint where
  | expected (kind : TokenKind)
  | expectedWord (word : String)
  | noExpression
  | tooDeep
  /-- the parenthesis opened at the place is not closed here -/
  | unmatched (opened : Place)
  | unexpected
  /-- the number token before cannot be read -/
  | unreadable (text : String)
  /-- a caller's own remark -/
  | remark (text : String)

/-- How many parentheses may be open at once. -/
def maxNesting : Nat := 50

/-- A complaint and the token at which it arises. -/
structure ParseError where
  complaint : Complaint
  found : Token

/-- The wording of a complaint about the token `found`. -/
def Complaint.wording (found : Token) : Complaint → String
  | expected kind => "Expected " ++ kind.name ++ ", found " ++ found.description
  | expectedWord word => "Expected '" ++ word ++ "', found " ++ found.description
  | noExpression => "Invalid expression: found " ++ found.description
  | tooDeep =>
    "Expression nested too deeply (more than " ++ toString maxNesting ++ " parentheses)"
  | unmatched opened =>
    "Unmatched '(' opened at " ++ opened.toText ++ ", found " ++ found.description
  | unexpected => "Unexpected token: " ++ found.description
  | unreadable text => "could not convert string to float: " ++ Text.quoted text
  | remark text => text

/-- The wording of an error, with its place; a number that cannot be read is
    reported without one. -/
def ParseError.message (e : ParseError) : String :=
  match e.complaint with
  | .unreadable _ => e.complaint.wording e.found
  | _ => "Line " ++ e.found.place.toText ++ " - " ++ e.complaint.wording e.found

end GotoBasic
