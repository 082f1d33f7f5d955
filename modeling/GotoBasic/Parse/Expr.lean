/-
  Parsing expressions.

      expr    := atomic ( (OPERATOR | EQUALS) atomic )*
      atomic  := WORD | NUMBER | STRING | LEFT_PAREN expr RIGHT_PAREN

  All operators bind alike and to the left, so `1 + 2 * 3` is `(1 + 2) * 3`,
  and parentheses leave no trace in the tree.  The cursor counts the open
  parentheses; at most `maxNesting` may be open.  An error inside parentheses
  leaves them open, but for the one that it finds unmatched.

  * `Cursor.parseAtomic`, `Cursor.parseExpr`: an expression at the cursor;
  * `Cursor.parseChain`: the operators and operands after a left operand;
  * `Cursor.expr`, `Cursor.atomic`: the result and the cursor then.
-/
import GotoBasic.Parse.Cursor

namespace GotoBasic.Cursor

mutual

/-- An expression at the cursor. -/
def parseExpr (c : Cursor) : Result Expr c.remaining :=
  match c.parseAtomic with
  | .failed error c' => .failed error c'
  | .done left c' shorter => c'.parseChain c.remaining left shorter
termination_by 2 * c.remaining + 1
decreasing_by all_goals omega

/-- The operators and operands that follow the operand `left`. -/
def parseChain (c : Cursor) (bound : Nat) (left : Expr) (shorter : c.remaining < bound) :
    Result Expr bound :=
  if h : c.current.joins then
    have hlt := remaining_past_lt (Token.ne_eof_of_joins h)
    match c.past.parseAtomic with
    | .failed error c' => .failed error c'
    | .done right c' shorter' =>
      c'.parseChain bound (.binary left (.text c.current.text) right)
        (Nat.lt_trans shorter' (Nat.lt_trans hlt shorter))
  else .done left c shorter
termination_by 2 * c.remaining + 1
decreasing_by all_goals omega

/-- An operand at the cursor. -/
def parseAtomic (c : Cursor) : Result Expr c.remaining :=
  if h : c.current.kind = .word then
    .done (.var (.text c.current.text)) c.past (remaining_past_lt_of_kind h (by decide))
  else if h : c.current.kind = .number then
    (Number.ofGrouped? c.current.text).elim (c.past.fail (.unreadable c.current.text))
      fun x => .done (.literal (.number x)) c.past (remaining_past_lt_of_kind h (by decide))
  else if h : c.current.kind = .string then
    .done (.literal (.text c.current.text)) c.past (remaining_past_lt_of_kind h (by decide))
  else if h : c.current.kind = .leftParen then
    have hlt := remaining_past_lt_of_kind h (by decide)
    if c.depth ≥ maxNesting then c.fail .tooDeep
    else
      match c.past.enter.parseExpr with
      | .failed error c' => .failed error c'
      | .done inner c' shorter =>
        if c'.leave.current.kind = .rightParen then
          .done inner c'.leave.past
            (Nat.lt_of_le_of_lt (remaining_past_le _) (Nat.lt_trans shorter hlt))
        else c'.leave.fail (.unmatched c.current.place)
  else c.fail .noExpression
termination_by 2 * c.remaining
decreasing_by
  show 2 * c.past.remaining + 1 < 2 * c.remaining
  omega

end

/-- Parses an expression. -/
def expr (c : Cursor) : Except ParseError Expr × Cursor := c.parseExpr.outcome

/-- Parses an operand. -/
def atomic (c : Cursor) : Except ParseError Expr × Cursor := c.parseAtomic.outcome

end GotoBasic.Cursor
