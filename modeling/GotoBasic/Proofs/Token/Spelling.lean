/-
  How the tokens of a text are spelled.

  * `Token.Spelled`: the text of a token is one of its kind;
  * `Mode.Spelled`: so is what the machine has read of a token under way;
  * `Mode.spelled_move`: a move keeps this and finishes only tokens that are
    well spelled;
  * `spelled_of_mem_scan`: all tokens of a text are well spelled.
-/
import GotoBasic.Token.Scan

namespace GotoBasic

/-- A letter, then letters and digits. -/
def IsWordSpelling (cs : List Char) : Prop :=
  ∃ c rest, cs = c :: rest ∧ Text.isLetter c = true ∧ ∀ d ∈ rest, Text.isWordChar d = true

/-- One or more decimal digits. -/
def IsDigitSpelling (cs : List Char) : Prop :=
  cs ≠ [] ∧ ∀ c ∈ cs, Text.isDecimalDigit c = true

/-- The text of a token is one of its kind. -/
def Token.Spelled (t : Token) : Prop :=
  match t.kind with
  | .word | .label => IsWordSpelling t.text.toList
  | .number => IsDigitSpelling t.text.toList
  | .string => '"' ∉ t.text.toList
  | .equals => t.text = "="
  | .operator => t.text ∈ ["+", "-", "*", "/", "<", ">"]
  | .line => t.text = "\n"
  | .leftParen => t.text = "("
  | .rightParen => t.text = ")"
  | .eof => t.text = ""

/-- What was read of a token under way is part of one of its kind. -/
def Mode.Spelled : Mode → Prop
  | word _ text => IsWordSpelling text.reverse
  | number _ text => IsDigitSpelling text.reverse
  | string _ text => '"' ∉ text
  | label _ text => text = [] ∨ IsWordSpelling text.reverse
  | default | comment => True

/-- What a move gives is well spelled. -/
def Move.Spelled (m : Move) : Prop := m.mode.Spelled ∧ ∀ t ∈ m.token, t.Spelled

theorem IsWordSpelling.singleton {c : Char} (h : Text.isLetter c = true) : IsWordSpelling [c] :=
  ⟨c, [], rfl, h, by simp⟩

theorem IsWordSpelling.append {cs : List Char} (h : IsWordSpelling cs) {c : Char}
    (hc : Text.isWordChar c = true) : IsWordSpelling (cs ++ [c]) := by
  obtain ⟨b, rest, rfl, hb, hrest⟩ := h
  exact ⟨b, rest ++ [c], rfl, hb, by simpa [or_imp, forall_and, hc] using hrest⟩

theorem IsDigitSpelling.singleton {c : Char} (h : Text.isDecimalDigit c = true) :
    IsDigitSpelling [c] :=
  ⟨by simp, by simpa using h⟩

theorem IsDigitSpelling.append {cs : List Char} (h : IsDigitSpelling cs) {c : Char}
    (hc : Text.isDecimalDigit c = true) : IsDigitSpelling (cs ++ [c]) :=
  ⟨by simp, by simpa [or_imp, forall_and, hc] using h.2⟩

namespace Move

theorem spelled_goOn {m : Mode} (h : m.Spelled) : (goOn m).Spelled := ⟨h, by simp [goOn]⟩

theorem spelled_leave : leave.Spelled := ⟨trivial, by simp [leave]⟩

theorem spelled_finish {kind : TokenKind} {text : List Char} {start : Place}
    (h : Token.Spelled ⟨kind, String.ofList text.reverse, start⟩) :
    (finish kind text start).Spelled :=
  ⟨trivial, by simpa [finish] using h⟩

end Move

/-- A sign is spelled as itself. -/
theorem spelled_of_signKind? {c : Char} {kind : TokenKind} {p : Place}
    (h : signKind? c = some kind) : Token.Spelled ⟨kind, String.singleton c, p⟩ := by
  unfold signKind? at h
  split at h <;> cases h
  all_goals simp only [Token.Spelled]; decide

namespace Mode

theorem spelled_beginning (c : Char) (p : Place) : (beginning c p).Spelled := by
  unfold beginning
  split
  · rename_i hk
    exact ⟨trivial, by simpa using spelled_of_signKind? hk⟩
  · split
    · rename_i hc
      exact Move.spelled_goOn (IsWordSpelling.singleton hc)
    · split
      · rename_i hc
        exact Move.spelled_goOn (IsDigitSpelling.singleton hc)
      · repeat' split
        all_goals exact Move.spelled_goOn (by simp [Spelled])

/-- **A move keeps tokens well spelled.** -/
theorem spelled_move {m : Mode} (h : m.Spelled) (c : Char) (p : Place) :
    (m.move c p).Spelled := by
  cases m with
  | default => exact spelled_beginning c p
  | word start text =>
    simp only [move]
    split
    · rename_i hc
      exact Move.spelled_goOn (by simpa [Spelled] using IsWordSpelling.append h hc)
    · exact Move.spelled_finish (by simpa [Token.Spelled, Spelled] using h)
  | number start text =>
    simp only [move]
    split
    · rename_i hc
      exact Move.spelled_goOn (by simpa [Spelled] using IsDigitSpelling.append h hc)
    · exact Move.spelled_finish (by simpa [Token.Spelled, Spelled] using h)
  | string start text =>
    simp only [move]
    split
    · exact ⟨trivial, by simpa [Move.finish, Token.Spelled, Spelled] using h⟩
    · rename_i hc
      exact Move.spelled_goOn (by simpa [Spelled, eq_comm] using ⟨hc, h⟩)
  | label start text =>
    simp only [move]
    split
    · exact Move.spelled_goOn (Or.inl rfl)
    · split
      · exact Move.spelled_leave
      · rename_i hl
        have hc : text = [] → Text.isLetter c = true := by rintro rfl; simpa using hl
        split
        · rename_i hw
          refine Move.spelled_goOn (Or.inr ?_)
          rcases h with rfl | h
          · exact .singleton (hc rfl)
          · simpa using h.append hw
        · rename_i hw
          rcases h with rfl | h
          · simp [Text.isWordChar, hc rfl] at hw
          · exact Move.spelled_finish (by simpa [Token.Spelled] using h)
  | comment =>
    simp only [move]
    split
    · exact Move.spelled_leave
    · exact Move.spelled_goOn trivial

end Mode

/-- Well spelled tokens are followed by well spelled ones. -/
theorem Scanner.spelled_of_mem_scanFrom {m : Mode} {s : Scanner} {found : List Token}
    (hm : m.Spelled) (hf : ∀ t ∈ found, t.Spelled) :
    ∀ t ∈ (scanFrom m s found).1, t.Spelled := by
  fun_induction scanFrom m s found with
  | case1 m s found hs =>
    simp only [List.mem_reverse, List.mem_cons]
    rintro t (rfl | ht)
    · rfl
    · exact hf t ht
  | case2 m s found c cs hs move ih =>
    obtain ⟨hmode, htoken⟩ := Mode.spelled_move hm c s.place
    refine ih hmode fun t ht => ?_
    rcases List.mem_append.1 ht with ht | ht
    · exact htoken t (Option.mem_toList.1 ht)
    · exact hf t ht

/-- **The tokens of a text are well spelled.** -/
theorem spelled_of_mem_scan {source : String} {t : Token} (h : t ∈ Token.scan source) :
    t.Spelled := by
  have hm : Mode.default.Spelled := trivial
  exact Scanner.spelled_of_mem_scanFrom hm (by simp) t h

end GotoBasic
