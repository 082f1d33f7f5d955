/-
  Splitting a program text into tokens with a small machine.

  The machine reads the text character by character in one of six modes
  (`Mode`).  At each character it makes a move (`Move`): it may finish a
  token, goes on in some mode, and either consumes the character or leaves it
  to the next move.  A move that leaves its character goes to the default
  mode, and the default mode always consumes (`Mode.move_of_leaves`), so the
  machine stops.  It never fails: a character that starts nothing is skipped,
  and a string without a closing mark is dropped.

  * `Mode.move`: the move of a mode at a character;
  * `Scanner.scan`: the tokens from a scanner on, and the scanner at the end;
  * `Token.scan`: the tokens of a text.
-/
import GotoBasic.Text.Digit
import GotoBasic.Token.Scanner

namespace GotoBasic

/-- The kinds of tokens that are one character. -/
def signKind? : Char → Option TokenKind
  | '\n' => some .line
  | '=' => some .equals
  | '+' | '-' | '*' | '/' | '<' | '>' => some .operator
  | '(' => some .leftParen
  | ')' => some .rightParen
  | _ => none

/-- What the machine is reading; tokens under way have their place and their
    reversed text. -/
inductive Mode where
  | default
  | word (start : Place) (text : List Char)
  | number (start : Place) (text : List Char)
  | string (start : Place) (text : List Char)
  | label (start : Place) (text : List Char)
  | comment

/-- What the machine does at a character: the mode it goes on in, the token it
    finishes, and whether it consumes the character. -/
structure Move where
  mode : Mode
  token : Option Token
  consumes : Bool

namespace Move

/-- Goes on in a mode after the character. -/
def goOn (mode : Mode) : Move := ⟨mode, none, true⟩

/-- Leaves the character to the default mode. -/
def leave : Move := ⟨.default, none, false⟩

/-- Finishes a token in front of the character. -/
def finish (kind : TokenKind) (text : List Char) (start : Place) : Move :=
  ⟨.default, some ⟨kind, String.ofList text.reverse, start⟩, false⟩

end Move

namespace Mode

/-- The move of the default mode at the character `c` at `p`. -/
def beginning (c : Char) (p : Place) : Move :=
  match signKind? c with
  | some kind => ⟨default, some ⟨kind, String.singleton c, p⟩, true⟩
  | none =>
    if Text.isLetter c then .goOn (word p [c])
    else if Text.isDecimalDigit c then .goOn (number p [c])
    else if c = '"' then .goOn (string p [])
    else if c = ':' then .goOn (label p [])
    else if c = '\'' then .goOn comment
    else .goOn default

/-- The move of a mode at the character `c` at `p`. -/
def move (m : Mode) (c : Char) (p : Place) : Move :=
  match m with
  | default => beginning c p
  | word start text =>
    if Text.isWordChar c then .goOn (word start (c :: text)) else .finish .word text start
  | number start text =>
    if Text.isDecimalDigit c then .goOn (number start (c :: text)) else .finish .number text start
  | string start text =>
    if c = '"' then { Move.finish .string text start with consumes := true }
    else .goOn (string start (c :: text))
  | label start text =>
    if text.isEmpty && (c == ' ' || c == '\t') then .goOn (label start [])
    else if text.isEmpty && !Text.isLetter c then .leave
    else if Text.isWordChar c then .goOn (label start (c :: text))
    else .finish .label text start
  | comment => if c = '\n' then .leave else .goOn comment

/-- How many moves a mode may make without consuming. -/
def weight : Mode → Nat
  | default => 0
  | _ => 1

theorem consumes_beginning (c : Char) (p : Place) : (beginning c p).consumes = true := by
  unfold beginning
  repeat' split
  all_goals rfl

/-- A move that leaves its character goes from another mode to the default
    one. -/
theorem move_of_leaves {m : Mode} {c : Char} {p : Place} :
    (m.move c p).consumes = false → (m.move c p).mode = default ∧ m ≠ default := by
  cases m with
  | default => simp [move, consumes_beginning]
  | word | number | string | label | comment =>
    simp only [move]
    repeat' split
    all_goals simp [Move.goOn, Move.leave, Move.finish]

theorem weight_le (m : Mode) : m.weight ≤ 1 := by cases m <;> simp [weight]

theorem weight_pos {m : Mode} (h : m ≠ default) : m.weight = 1 := by
  cases m <;> simp_all [weight]

end Mode

namespace Scanner

/-- The end of the text as a token. -/
def endToken (s : Scanner) : Token := ⟨.eof, "", s.place⟩

/-- Moves over the next character if the move consumes it. -/
def follow (s : Scanner) (move : Move) : Scanner := if move.consumes then s.advance else s

/-- Every move reduces the characters to come, counted twice, plus the weight
    of the mode. -/
theorem follow_decreases {s : Scanner} {c : Char} {cs : List Char} (m : Mode)
    (h : s.rest = c :: cs) :
    2 * (s.follow (m.move c s.place)).rest.length + (m.move c s.place).mode.weight <
      2 * s.rest.length + m.weight := by
  cases hc : (m.move c s.place).consumes with
  | true =>
    have := Mode.weight_le (m.move c s.place).mode
    simp only [follow, hc, if_true, rest_advance, h, List.tail_cons, List.length_cons]
    omega
  | false =>
    obtain ⟨hm, hne⟩ := Mode.move_of_leaves hc
    have := Mode.weight_pos hne
    simp only [follow, hc, hm, Mode.weight, Bool.false_eq_true, if_false]
    omega

/-- Runs the machine from a mode, after the reversed tokens `found`. -/
def scanFrom (mode : Mode) (s : Scanner) (found : List Token) : List Token × Scanner :=
  match _h : s.rest with
  | [] => ((s.endToken :: found).reverse, s)
  | c :: _ =>
    let move := mode.move c s.place
    scanFrom move.mode (s.follow move) (move.token.toList ++ found)
termination_by 2 * s.rest.length + mode.weight
decreasing_by exact follow_decreases mode _h

/-- The tokens from the scanner on, and the scanner at the end of the text. -/
def scan (s : Scanner) : List Token × Scanner := scanFrom .default s []

end Scanner

/-- The tokens of a program text. -/
def Token.scan (source : String) : List Token := (Scanner.ofText source).scan.1

end GotoBasic
