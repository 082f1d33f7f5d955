/-
  Maximal munch: the tokens of a text, cut off one after the other.

  * `Lexeme`: a kind and a text, which is a token without its place;
  * `bite c cs`: what the text `c :: cs` begins with, as long as it can be,
    and what is left of the text;
  * `munch cs`: the lexemes of a text, bite after bite;
  * `Mode.lexemes_move`: a move of the machine and what follows it give the
    same lexemes;
  * `lexemes_scan`: the machine finds the lexemes of the closed text.

  A word, number or label that the end of the text cuts short is lost to the
  machine, and a lexeme here; a closed text has none.
-/
import GotoBasic.Proofs.Token.Runs

namespace GotoBasic

/-! ## Bite after bite -/

/-- The kind and the text of a token. -/
structure Lexeme where
  kind : TokenKind
  text : String
  deriving DecidableEq

/-- The characters that are tokens by themselves. -/
def signs : List (Char × TokenKind) :=
  [('\n', .line), ('=', .equals), ('+', .operator), ('-', .operator), ('*', .operator),
   ('/', .operator), ('<', .operator), ('>', .operator), ('(', .leftParen), (')', .rightParen)]

/-- A lexeme, if there is one, and what is left of the text. -/
abbrev Bite := Option Lexeme × List Char

/-- The longest run of characters of a class, after those `read` already. -/
def biteRun (kind : TokenKind) (isInside : Char → Bool) (read cs : List Char) : Bite :=
  (some ⟨kind, String.ofList (read ++ cs.takeWhile isInside)⟩, cs.dropWhile isInside)

/-- A string up to the next quotation mark, after the characters `read`
    already; without such a mark the whole text is lost. -/
def biteString (read cs : List Char) : Bite :=
  match cs.dropWhile (· != '"') with
  | [] => (none, [])
  | _ :: rest => (some ⟨.string, String.ofList (read ++ cs.takeWhile (· != '"'))⟩, rest)

/-- A label behind its colon, with spaces and tabulators in between; without a
    letter there is none. -/
def biteLabel (cs : List Char) : Bite :=
  match cs.dropWhile (fun c => c == ' ' || c == '\t') with
  | [] => (none, [])
  | c :: rest =>
    if Text.isLetter c then biteRun .label Text.isWordChar [] (c :: rest) else (none, c :: rest)

/-- What the text `c :: cs` begins with. -/
def bite (c : Char) (cs : List Char) : Bite :=
  match signs.lookup c with
  | some kind => (some ⟨kind, String.singleton c⟩, cs)
  | none =>
    if Text.isLetter c then biteRun .word Text.isWordChar [c] cs
    else if Text.isDecimalDigit c then biteRun .number Text.isDecimalDigit [c] cs
    else if c = '"' then biteString [] cs
    else if c = ':' then biteLabel cs
    else if c = '\'' then (none, cs.dropWhile (· != '\n'))
    else (none, cs)

section
variable {c : Char} {cs read : List Char}

theorem biteRun_cons {kind : TokenKind} {isInside : Char → Bool} :
    biteRun kind isInside read (c :: cs) =
      if isInside c then biteRun kind isInside (read ++ [c]) cs
      else (some ⟨kind, String.ofList read⟩, c :: cs) := by
  by_cases hc : isInside c <;> simp [biteRun, hc]

theorem biteString_cons : biteString read (c :: cs) =
    if c = '"' then (some ⟨.string, String.ofList read⟩, cs) else biteString (read ++ [c]) cs := by
  by_cases hc : c = '"' <;> simp [biteString, hc]

theorem biteLabel_cons : biteLabel (c :: cs) =
    if (c == ' ' || c == '\t') = true then biteLabel cs
    else if Text.isLetter c then biteRun .label Text.isWordChar [] (c :: cs)
    else (none, c :: cs) := by
  by_cases hc : (c == ' ' || c == '\t') = true <;> simp [biteLabel, hc]

end

section
variable (cs : List Char)

theorem length_dropWhile_le {α : Type} (p : α → Bool) (xs : List α) :
    (xs.dropWhile p).length ≤ xs.length :=
  (List.dropWhile_sublist p).length_le

theorem length_biteString_le (read : List Char) : (biteString read cs).2.length ≤ cs.length := by
  have := length_dropWhile_le (· != '"') cs
  unfold biteString
  split
  · simp
  · rename_i h
    rw [h, List.length_cons] at this
    exact Nat.le_of_succ_le this

theorem length_biteLabel_le : (biteLabel cs).2.length ≤ cs.length := by
  have := length_dropWhile_le (fun c => c == ' ' || c == '\t') cs
  unfold biteLabel
  split
  · simp
  · rename_i h
    rw [h] at this
    split
    · exact Nat.le_trans (length_dropWhile_le _ _) this
    · exact this

/-- A bite takes the first character at least. -/
theorem length_bite_le (c : Char) : (bite c cs).2.length ≤ cs.length := by
  unfold bite
  split
  · exact Nat.le_refl _
  · repeat' split
    · exact length_dropWhile_le _ _
    · exact length_dropWhile_le _ _
    · exact length_biteString_le cs []
    · exact length_biteLabel_le cs
    · exact length_dropWhile_le _ _
    · exact Nat.le_refl _

end

/-- The lexemes of a text, the last one being its end. -/
def munch (cs : List Char) : List Lexeme :=
  match cs with
  | [] => [⟨.eof, ""⟩]
  | c :: cs => (bite c cs).1.toList ++ munch (bite c cs).2
termination_by cs.length
decreasing_by exact Nat.lt_succ_of_le (length_bite_le cs c)

/-! ## The machine -/

/-- A token without its place. -/
def Token.lexeme (t : Token) : Lexeme := ⟨t.kind, t.text⟩

theorem lookup_signs (c : Char) : signs.lookup c = signKind? c := by
  unfold signKind?
  split
  case h_11 => simp_all [signs, List.lookup_eq_none_iff]
  all_goals rfl

namespace Mode

/-- What the text `cs` begins with after what the mode has read. -/
def bite : Mode → List Char → Bite
  | default, cs => (none, cs)
  | word _ text, cs => biteRun .word Text.isWordChar text.reverse cs
  | number _ text, cs => biteRun .number Text.isDecimalDigit text.reverse cs
  | string _ text, cs => biteString text.reverse cs
  | label _ [], cs => biteLabel cs
  | label _ text, cs => biteRun .label Text.isWordChar text.reverse cs
  | comment, cs => (none, cs.dropWhile (· != '\n'))

/-- The lexemes of the text `cs` after what the mode has read. -/
def lexemes (m : Mode) (cs : List Char) : List Lexeme := (m.bite cs).1.toList ++ munch (m.bite cs).2

theorem lexemes_default (cs : List Char) : default.lexemes cs = munch cs := by
  simp [lexemes, bite]

theorem lexemes_beginning (c : Char) (p : Place) (cs : List Char) :
    munch (c :: cs) = ((beginning c p).token.map Token.lexeme).toList ++
      (beginning c p).mode.lexemes cs := by
  rw [munch, GotoBasic.bite, lookup_signs, beginning]
  cases signKind? c with
  | some kind => simp [Token.lexeme, lexemes_default]
  | none =>
    simp only
    repeat' split
    all_goals simp [Move.goOn, lexemes, bite]

/-- **A move and what follows it give the same lexemes.** -/
theorem lexemes_move (m : Mode) (c : Char) (p : Place) (cs : List Char) :
    m.lexemes (c :: cs) = ((m.move c p).token.map Token.lexeme).toList ++
      (m.move c p).mode.lexemes (if (m.move c p).consumes then cs else c :: cs) := by
  cases m with
  | default =>
    rw [lexemes_default, move, consumes_beginning, if_pos rfl]
    exact lexemes_beginning c p cs
  | word start text =>
    by_cases hc : Text.isWordChar c = true
    · simp [move, hc, Move.goOn, lexemes, bite, biteRun_cons]
    · simp [move, hc, Move.finish, lexemes, bite, biteRun_cons, Token.lexeme]
  | number start text =>
    by_cases hc : Text.isDecimalDigit c = true
    · simp [move, hc, Move.goOn, lexemes, bite, biteRun_cons]
    · simp [move, hc, Move.finish, lexemes, bite, biteRun_cons, Token.lexeme]
  | string start text =>
    by_cases hc : c = '"'
    · simp [move, hc, Move.finish, lexemes, bite, biteString_cons, Token.lexeme]
    · simp [move, hc, Move.goOn, lexemes, bite, biteString_cons]
  | label start text =>
    cases text with
    | nil =>
      by_cases hb : (c == ' ' || c == '\t') = true
      · simp [move, hb, Move.goOn, lexemes, bite, biteLabel_cons]
      · by_cases hl : Text.isLetter c = true
        · have hw : Text.isWordChar c = true := by simp [Text.isWordChar, hl]
          simp [move, hb, hl, hw, Move.goOn, lexemes, bite, biteLabel_cons, biteRun_cons]
        · simp [move, hb, hl, Move.leave, lexemes, bite, biteLabel_cons]
    | cons d text =>
      by_cases hc : Text.isWordChar c = true
      · simp [move, hc, Move.goOn, lexemes, bite, biteRun_cons]
      · simp [move, hc, Move.finish, lexemes, bite, biteRun_cons, Token.lexeme]
  | comment =>
    by_cases hc : c = '\n'
    · simp [move, hc, Move.leave, lexemes, bite]
    · simp [move, hc, Move.goOn, lexemes, bite]

/-! ## Closed texts -/

/-- The mode has not read a part of a word, number or label. -/
def Rests : Mode → Prop
  | word _ _ | number _ _ => False
  | label _ text => text = []
  | default | string _ _ | comment => True

theorem lexemes_nil {m : Mode} (h : m.Rests) : m.lexemes [] = munch [] := by
  cases m with
  | default | string | comment => rfl
  | word | number => exact h.elim
  | label start text =>
    obtain rfl : text = [] := h
    rfl

/-- A line break that is consumed leaves no word, number or label under
    way. -/
theorem rests_move {m : Mode} {p : Place} (h : (m.move '\n' p).consumes = true) :
    (m.move '\n' p).mode.Rests := by
  cases m with
  | default => trivial
  | string => simp [move, Move.goOn, Rests]
  | word | number | label | comment => simp [consumes_newline, mayLeave] at h

/-- The text ends with a line break, or there is none and nothing is under
    way. -/
def Closes (m : Mode) (cs : List Char) : Prop :=
  cs.getLast? = some '\n' ∨ (cs = [] ∧ m.Rests)

theorem Closes.move {m : Mode} {c : Char} {cs : List Char} (h : m.Closes (c :: cs)) (p : Place) :
    (m.move c p).mode.Closes (if (m.move c p).consumes then cs else c :: cs) := by
  obtain h : (c :: cs).getLast? = some '\n' := by simpa [Closes] using h
  split
  · rename_i hc
    cases cs with
    | nil =>
      obtain rfl : c = '\n' := by simpa using h
      exact .inr ⟨rfl, rests_move hc⟩
    | cons d cs => exact .inl (by simpa using h)
  · exact .inl h

end Mode

theorem Scanner.rest_follow {s : Scanner} {c : Char} {cs : List Char} (h : s.rest = c :: cs)
    (m : Move) : (s.follow m).rest = if m.consumes then cs else c :: cs := by
  unfold follow
  split <;> simp [rest_advance, h]

/-- **From any mode on, the machine finds the lexemes of the text to come.** -/
theorem Scanner.lexemes_scanFrom {m : Mode} {s : Scanner} {found : List Token}
    (h : m.Closes s.rest) : (scanFrom m s found).1.map Token.lexeme =
      found.reverse.map Token.lexeme ++ m.lexemes s.rest := by
  fun_induction scanFrom m s found with
  | case1 m s found hs =>
    have hm : m.Rests := by simpa [Mode.Closes, hs] using h
    simp [hs, Mode.lexemes_nil hm, munch, endToken, Token.lexeme]
  | case2 m s found c cs hs move ih =>
    rw [hs] at h
    rw [rest_follow hs] at ih
    rw [ih (h.move s.place), hs, Mode.lexemes_move m c s.place cs]
    cases move.token <;> simp [move]

theorem closed_eq (cs : List Char) :
    closed cs = if cs = [] ∨ cs.getLast? = some '\n' then cs else cs ++ ['\n'] := by
  cases h : cs.getLast? with
  | none => simp [closed, List.getLast?_eq_none_iff.1 h]
  | some c =>
    have hne : cs ≠ [] := by rintro rfl; simp at h
    simp [closed, h, hne]

theorem closes_closed (cs : List Char) : Mode.default.Closes (closed cs) := by
  rw [closed_eq]
  split
  · rename_i h
    exact h.symm.imp_right fun h => ⟨h, trivial⟩
  · exact .inl (by simp)

/-- The machine finds the lexemes of the closed text. -/
theorem lexemes_scan_closed (source : String) :
    (Token.scan source).map Token.lexeme = munch (closed source.toList) := by
  have h := @Scanner.lexemes_scanFrom .default (.ofText source) [] (closes_closed source.toList)
  rwa [Mode.lexemes_default] at h

/-- **The tokens of a text are found by maximal munch**: their kinds and texts
    are the lexemes of the text, with a line break at its end unless it is
    empty or has one. -/
theorem lexemes_scan (source : String) : (Token.scan source).map Token.lexeme =
    munch (if source.toList = [] ∨ source.toList.getLast? = some '\n' then source.toList
      else source.toList ++ ['\n']) := by
  rw [lexemes_scan_closed, closed_eq]

-- A colon without a letter behind it, a digit that is none of a number, a
-- comment, and a string without an end.
example : munch ":1 :\ta² 'b\n\"c".toList =
    [⟨.number, "1"⟩, ⟨.label, "a²"⟩, ⟨.line, "\n"⟩, ⟨.eof, ""⟩] := by
  decide +kernel

end GotoBasic
