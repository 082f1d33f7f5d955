/-
  Cursors: parsing step by step over an array of tokens.

  A cursor holds the tokens, the number of tokens passed and the number of
  open parentheses.  Behind the last token it finds the end of the text again
  and again.

  * `Cursor.peek`, `Cursor.next`: look at a token, and pass one;
  * `Cursor.token?`: looks at a token before or behind the cursor;
  * `Cursor.accept`, `Cursor.expect` and the like: pass a token on condition;
  * `Cursor.Result α bound`: how a parse ends, with the cursor then.  A parse
    that fails leaves the cursor where it was found to fail.
-/
import GotoBasic.Index
import GotoBasic.Parse.Basic

namespace GotoBasic

namespace Token

/-- Whether a token is the given word. -/
def isWord (t : Token) (word : String) : Bool := t.kind == .word && t.text == word

/-- Whether a token may stand between two operands. -/
def joins (t : Token) : Bool := t.kind == .operator || t.kind == .equals

/-- The end of the text that is found behind the last of the tokens. -/
def endAfter (tokens : List Token) : Token :=
  ⟨.eof, "", (tokens.getLast?.map (·.place)).getD ⟨0, 0⟩⟩

theorem isWord_iff {t : Token} {word : String} :
    t.isWord word = true ↔ t.kind = .word ∧ t.text = word := by
  simp [isWord]

theorem kind_of_joins {t : Token} (h : t.joins = true) :
    t.kind = .operator ∨ t.kind = .equals := by
  simpa [joins] using h

theorem ne_eof_of_isWord {t : Token} {word : String} (h : t.isWord word = true) :
    t.kind ≠ .eof := by
  simp [(isWord_iff.1 h).1]

theorem ne_eof_of_joins {t : Token} (h : t.joins = true) : t.kind ≠ .eof := by
  rcases kind_of_joins h with hk | hk <;> simp [hk]

end Token

/-- A position in an array of tokens, with the number of open parentheses. -/
structure Cursor where
  tokens : Array Token
  position : Nat
  depth : Int

namespace Cursor

/-- The cursor in front of the tokens. -/
def ofTokens (tokens : List Token) : Cursor := ⟨tokens.toArray, 0, 0⟩

/-- The token at a position. -/
def tokenAt (c : Cursor) (position : Nat) : Token :=
  match c.tokens[position]? with
  | some t => t
  | none => .endAfter c.tokens.toList

/-- The token `offset` places on. -/
def peek (c : Cursor) (offset : Nat) : Token := c.tokenAt (c.position + offset)

/-- The index of the place `offset` places on, or back if that is negative. -/
def index (c : Cursor) (offset : Int) : Int := c.position + offset

/-- The token `offset` places on, or back if that is negative; places in front
    of the first token count from the end, as long as there are tokens. -/
def token? (c : Cursor) (offset : Int) : Option Token :=
  match c.index offset with
  | .ofNat position => some (c.tokenAt position)
  | .negSucc n => (Index.position? c.tokens.size (.negSucc n)).map c.tokenAt

/-- The token at the cursor. -/
def current (c : Cursor) : Token := c.peek 0

/-- The cursor behind the token. -/
def past (c : Cursor) : Cursor := { c with position := c.position + 1 }

/-- Passes a token. -/
def next (c : Cursor) : Token × Cursor := (c.current, c.past)

/-- Whether the tokens ahead have the given kinds. -/
def isAhead (c : Cursor) (kinds : List TokenKind) : Bool :=
  (kinds.zipIdx).all fun (kind, offset) => (c.peek offset).kind == kind

/-- Whether the given word is ahead. -/
def isWordAhead (c : Cursor) (word : String) : Bool := c.current.isWord word

/-- Passes a token of the given kind, if one is ahead. -/
def accept (c : Cursor) (kind : TokenKind) : Bool × Cursor :=
  if c.isAhead [kind] then (true, c.past) else (false, c)

/-- Passes the given word, if it is ahead. -/
def acceptWord (c : Cursor) (word : String) : Bool × Cursor :=
  if c.isWordAhead word then (true, c.past) else (false, c)

/-- A complaint about the token at the cursor. -/
def complain (c : Cursor) (complaint : Complaint) : ParseError := ⟨complaint, c.current⟩

/-- Passes a token of the given kind. -/
def expect (c : Cursor) (kind : TokenKind) : Except ParseError Token × Cursor :=
  if c.isAhead [kind] then (.ok c.current, c.past) else (.error (c.complain (.expected kind)), c)

/-- Passes the given word. -/
def expectWord (c : Cursor) (word : String) : Except ParseError Token × Cursor :=
  if c.isWordAhead word then (.ok c.current, c.past)
  else (.error (c.complain (.expectedWord word)), c)

/-- The cursor with one more open parenthesis. -/
def enter (c : Cursor) : Cursor := { c with depth := c.depth + 1 }

/-- The cursor with one open parenthesis less. -/
def leave (c : Cursor) : Cursor := { c with depth := c.depth - 1 }

/-! ## What is left -/

/-- The number of tokens that are left. -/
def remaining (c : Cursor) : Nat := c.tokens.size - c.position

section
variable (c : Cursor)

theorem isAhead_singleton {kind : TokenKind} : c.isAhead [kind] = true ↔ c.current.kind = kind := by
  simp [isAhead, current]

theorem remaining_past_le : c.past.remaining ≤ c.remaining :=
  Nat.sub_le_sub_left (Nat.le_succ _) _

theorem remaining_expect_le (kind : TokenKind) : (c.expect kind).2.remaining ≤ c.remaining := by
  rw [expect]
  split
  · exact c.remaining_past_le
  · exact Nat.le_refl _

theorem remaining_expectWord_le (word : String) :
    (c.expectWord word).2.remaining ≤ c.remaining := by
  rw [expectWord]
  split
  · exact c.remaining_past_le
  · exact Nat.le_refl _

variable {c}

/-- Behind the last token is the end of the text. -/
theorem lt_size_of_kind_ne_eof (h : c.current.kind ≠ .eof) : c.position < c.tokens.size := by
  refine Decidable.byContradiction fun hle => h ?_
  simp only [current, peek, tokenAt, Nat.add_zero, Array.getElem?_eq_none (Nat.le_of_not_lt hle)]
  rfl

/-- Fewer tokens are left behind a token. -/
theorem remaining_past_lt (h : c.current.kind ≠ .eof) : c.past.remaining < c.remaining :=
  Nat.sub_lt_sub_left (lt_size_of_kind_ne_eof h) (Nat.lt_succ_self _)

theorem remaining_past_lt_of_kind {kind : TokenKind} (h : c.current.kind = kind)
    (hne : kind ≠ .eof) : c.past.remaining < c.remaining :=
  remaining_past_lt (h ▸ hne)

end

/-! ## Results -/

/-- How a parse ends: with a result, and fewer than `bound` tokens left; or with
    an error. -/
inductive Result (α : Type) (bound : Nat) where
  | done (result : α) (cursor : Cursor) (shorter : cursor.remaining < bound)
  | failed (error : ParseError) (cursor : Cursor)

/-- Fails with a complaint about the token at the cursor. -/
def fail {α : Type} {bound : Nat} (c : Cursor) (complaint : Complaint) : Result α bound :=
  .failed (c.complain complaint) c

namespace Result

variable {α β : Type} {bound : Nat}

/-- What was found without a parse, fewer than `bound` tokens being left. -/
def of (found : Except ParseError α × Cursor) (shorter : found.2.remaining < bound) :
    Result α bound :=
  match found, shorter with
  | (.ok a, c), shorter => done a c shorter
  | (.error error, c), _ => failed error c

/-- Goes on with the result from the cursor on. -/
def andThen (r : Result α bound)
    (next : α → (c : Cursor) → c.remaining < bound → Result β bound) : Result β bound :=
  match r with
  | done a c shorter => next a c shorter
  | failed error c => failed error c

/-- The same result below a larger bound. -/
def widen {larger : Nat} (h : bound ≤ larger) (r : Result α bound) : Result α larger :=
  match r with
  | done a c shorter => done a c (Nat.lt_of_lt_of_le shorter h)
  | failed error c => failed error c

/-- The result or the error, and the cursor. -/
def outcome : Result α bound → Except ParseError α × Cursor
  | done a c _ => (.ok a, c)
  | failed error c => (.error error, c)

end Result

end Cursor

end GotoBasic
