/-
  Parsing statements and programs.

      program  := ( LINE* ( LABEL | assign | print | goto | ifThen ) )* LINE*
      assign   := WORD EQUALS expr
      print    := "print" expr
      goto     := "goto" WORD
      ifThen   := "if" expr "then" WORD

  A keyword is an ordinary word, so `print = 1` assigns to a variable.  Line
  breaks are skipped between statements and needed nowhere.  A label marks the
  index of the statement that follows it; of two labels with the same name the
  later one counts.

  * `Cursor.parseStatement`: a statement at the cursor;
  * `Cursor.parseProgram`: the program up to the end of the tokens, or up to
    the first token for the end of the text;
  * `Cursor.statement`, `Cursor.program`: the result and the cursor then;
  * `Program.ofTokens`, `Program.parse`: the program of a list of tokens and
    of a text.
-/
import GotoBasic.Parse.Expr
import GotoBasic.Token.Scan

namespace GotoBasic

namespace Cursor

/-- What stands after `if`: a condition, `then` and a label. -/
def parseIfThen (c : Cursor) : Result Statement c.remaining :=
  c.parseExpr.andThen fun condition c shorter =>
    (Result.of (c.expectWord "then")
      (Nat.lt_of_le_of_lt (c.remaining_expectWord_le _) shorter)).andThen fun _ c shorter =>
      (Result.of (c.expect .word)
        (Nat.lt_of_le_of_lt (c.remaining_expect_le _) shorter)).andThen fun label c shorter =>
        .done (.ifThen condition (.text label.text)) c shorter

/-- A statement at the cursor. -/
def parseStatement (c : Cursor) : Result Statement c.remaining :=
  if c.isAhead [.word, .equals] then
    (c.past.past.parseExpr.widen
      (Nat.le_trans c.past.remaining_past_le c.remaining_past_le)).andThen fun expr c' shorter =>
      .done (.assign (.text c.current.text) expr) c' shorter
  else if c.isWordAhead "print" then
    (c.past.parseExpr.widen c.remaining_past_le).andThen fun expr c shorter =>
      .done (.print expr) c shorter
  else if h : c.isWordAhead "goto" then
    (Result.of (c.past.expect .word)
      (Nat.lt_of_le_of_lt (c.past.remaining_expect_le _)
        (remaining_past_lt (Token.ne_eof_of_isWord h)))).andThen fun label c shorter =>
      .done (.goto (.text label.text)) c shorter
  else if c.isWordAhead "if" then c.past.parseIfThen.widen c.remaining_past_le
  else c.fail .unexpected

/-- The program at the cursor, after the statements and labels of `program`. -/
def parseProgramFrom (c : Cursor) (bound : Nat) (program : Program)
    (shorter : c.remaining < bound) : Result Program bound :=
  if h : c.current.kind = .line then
    have hlt := remaining_past_lt_of_kind h (by decide)
    c.past.parseProgramFrom bound program (Nat.lt_trans hlt shorter)
  else if c.current.kind = .eof then .done program c shorter
  else if h : c.current.kind = .label then
    have hlt := remaining_past_lt_of_kind h (by decide)
    let labels := program.labels.put c.current.text program.statements.size
    c.past.parseProgramFrom bound { program with labels } (Nat.lt_trans hlt shorter)
  else
    match c.parseStatement with
    | .failed error c' => .failed error c'
    | .done statement c' shorter' =>
      let statements := program.statements.push statement
      c'.parseProgramFrom bound { program with statements } (Nat.lt_trans shorter' shorter)
termination_by c.remaining

/-- The program at the cursor. -/
def parseProgram (c : Cursor) : Result Program (c.remaining + 1) :=
  c.parseProgramFrom (c.remaining + 1) .empty (Nat.lt_add_one _)

/-- Parses a statement. -/
def statement (c : Cursor) : Except ParseError Statement × Cursor := c.parseStatement.outcome

/-- Parses a program. -/
def program (c : Cursor) : Except ParseError Program × Cursor := c.parseProgram.outcome

end Cursor

namespace Program

/-- The program of a list of tokens. -/
def ofTokens (tokens : List Token) : Except ParseError Program :=
  (Cursor.ofTokens tokens).program.1

/-- The program of a text. -/
def parse (source : String) : Except ParseError Program := ofTokens (Token.scan source)

end Program

end GotoBasic
