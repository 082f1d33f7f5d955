/-
  How parsing moves a cursor.

  * `Cursor.Advances`: the cursor goes forward, and not beyond the tokens;
  * `Cursor.Result.Moves c r`: the parse `r` leads forward from the cursor `c`;
    a result leaves as many parentheses open as there were, and an error no
    fewer, and no more than are allowed;
  * `moves_parseExpr`, `moves_parseStatement`, `moves_parseProgram`: this is
    how the parsers behave.
-/
import GotoBasic.Parse.Program

namespace GotoBasic.Cursor

variable {c c' c'' : Cursor}

/-! ## Going forward -/

/-- From `c` to `c'` the cursor goes forward, and not beyond the tokens. -/
structure Advances (c c' : Cursor) : Prop where
  tokens : c'.tokens = c.tokens
  forward : c.position ≤ c'.position
  inside : c'.position ≤ max c.position c.tokens.size

namespace Advances

theorem refl (c : Cursor) : c.Advances c := ⟨rfl, Nat.le_refl _, Nat.le_max_left _ _⟩

theorem trans (h : c.Advances c') (h' : c'.Advances c'') : c.Advances c'' := by
  refine ⟨h'.tokens.trans h.tokens, Nat.le_trans h.forward h'.forward, ?_⟩
  have hin := h'.inside
  rw [h.tokens] at hin
  exact Nat.le_trans hin (Nat.max_le.2 ⟨h.inside, Nat.le_max_right _ _⟩)

/-- Parentheses do not count. -/
theorem of_enter (h : c.enter.Advances c') : c.Advances c' := ⟨h.tokens, h.forward, h.inside⟩

theorem leave (h : c.Advances c') : c.Advances c'.leave := ⟨h.tokens, h.forward, h.inside⟩

/-- There is a token to pass. -/
theorem past (h : c.current.kind ≠ .eof) : c.Advances c.past :=
  ⟨rfl, Nat.le_succ _, Nat.le_trans (lt_size_of_kind_ne_eof h) (Nat.le_max_right _ _)⟩

theorem past_of_kind {kind : TokenKind} (h : c.current.kind = kind) (hne : kind ≠ .eof) :
    c.Advances c.past :=
  .past (h ▸ hne)

/-- A cursor that has fewer tokens left has moved on. -/
theorem position_lt (h : c.Advances c') (hlt : c'.remaining < c.remaining) :
    c.position < c'.position := by
  rw [remaining, remaining, h.tokens] at hlt
  omega

end Advances

/-! ## Results -/

namespace Result

variable {α β : Type} {bound : Nat}

/-- The parse leads forward from the cursor `c`.  A result leaves as many
    parentheses open as there were.  An error leaves those open that were, and
    no more than are allowed, or were open before. -/
def Moves (c : Cursor) : Result α bound → Prop
  | done _ c' _ => c.Advances c' ∧ c'.depth = c.depth
  | failed _ c' => c.Advances c' ∧ c.depth ≤ c'.depth ∧ c'.depth ≤ max c.depth maxNesting

namespace Moves

theorem done_here {a : α} {h : c.remaining < bound} : (done a c h).Moves c := ⟨.refl c, rfl⟩

theorem fail_here {complaint : Complaint} : (c.fail complaint : Result α bound).Moves c :=
  ⟨.refl c, Int.le_refl _, Int.le_max_left _ _⟩

/-- A parse further on. -/
theorem behind {r : Result α bound} (hr : r.Moves c') (h : c.Advances c')
    (hd : c'.depth = c.depth) : r.Moves c := by
  cases r with
  | done a c'' =>
    obtain ⟨h', hd'⟩ := hr
    exact ⟨h.trans h', hd'.trans hd⟩
  | failed e c'' =>
    obtain ⟨h', hle, hmax⟩ := hr
    rw [hd] at hle hmax
    exact ⟨h.trans h', hle, hmax⟩

theorem widen {larger : Nat} {h : bound ≤ larger} {r : Result α bound} (hr : r.Moves c) :
    (r.widen h).Moves c := by
  cases r <;> exact hr

theorem andThen {r : Result α bound}
    {next : α → (c : Cursor) → c.remaining < bound → Result β bound}
    (hr : r.Moves c) (hn : ∀ a c' h, (next a c' h).Moves c') : (r.andThen next).Moves c := by
  cases r with
  | done a c' h => exact (hn a c' h).behind hr.1 hr.2
  | failed => exact hr

/-- A parse inside a parenthesis that fails leaves it open. -/
theorem of_failed_enter {larger : Nat} {e : ParseError} (hd : c.depth < maxNesting)
    (h : (failed e c' : Result α bound).Moves c.enter) :
    (failed e c' : Result β larger).Moves c := by
  obtain ⟨hadvances, hle, hmax⟩ := h
  simp only [enter] at hle hmax
  exact ⟨hadvances.of_enter, by omega, by omega⟩

/-- Behind a parenthesis that has been closed again. -/
theorem depth_leave {a : α} {h} (hm : (done a c' h : Result α bound).Moves c.enter) :
    c'.leave.depth = c.depth := by
  have hd := hm.2
  simp only [enter] at hd
  simp only [leave, hd]
  omega

end Moves

end Result

/-! ## Expressions -/

-- The three theorems follow the recursion of the parser.
mutual

theorem moves_parseExpr (c : Cursor) : c.parseExpr.Moves c := by
  rw [parseExpr]
  have ha := moves_parseAtomic c
  split
  · rename_i hp
    rwa [hp] at ha
  · rename_i hp
    rw [hp] at ha
    exact (moves_parseChain _).behind ha.1 ha.2
termination_by 2 * c.remaining + 1
decreasing_by all_goals omega

theorem moves_parseChain (c : Cursor) {bound : Nat} {left : Expr} {h : c.remaining < bound} :
    (c.parseChain bound left h).Moves c := by
  rw [parseChain]
  split
  · rename_i hj
    have hne := Token.ne_eof_of_joins hj
    have hlt := remaining_past_lt hne
    have ha := (moves_parseAtomic c.past).behind (.past hne) rfl
    dsimp only
    split
    · rename_i hp
      rwa [hp] at ha
    · rename_i hp
      rw [hp] at ha
      exact (moves_parseChain _).behind ha.1 ha.2
  · exact .done_here
termination_by 2 * c.remaining + 1
decreasing_by all_goals omega

theorem moves_parseAtomic (c : Cursor) : c.parseAtomic.Moves c := by
  rw [parseAtomic]
  split
  · rename_i hk
    exact ⟨.past_of_kind hk (by decide), rfl⟩
  split
  · rename_i hk
    have hpast : c.Advances c.past := .past_of_kind hk (by decide)
    cases Number.ofGrouped? c.current.text with
    | none => exact Result.Moves.fail_here.behind hpast rfl
    | some x => exact ⟨hpast, rfl⟩
  split
  · rename_i hk
    exact ⟨.past_of_kind hk (by decide), rfl⟩
  split
  · rename_i hk
    have hlt := remaining_past_lt_of_kind hk (by decide)
    have hpast : c.Advances c.past := .past_of_kind hk (by decide)
    dsimp only
    split
    · exact .fail_here
    · rename_i hd
      -- one parenthesis more is open inside
      have hi := moves_parseExpr c.past.enter
      split
      · rename_i e c' hp
        rw [hp] at hi
        have hf : (Result.failed e c' : Result Expr c.remaining).Moves c.past :=
          .of_failed_enter (Int.not_le.1 hd) hi
        exact hf.behind hpast rfl
      · rename_i inner c' _ hp
        rw [hp] at hi
        have hleave : c.Advances c'.leave := hpast.trans hi.1.of_enter.leave
        have hdepth : c'.leave.depth = c.depth := hi.depth_leave
        split
        · rename_i hu
          exact ⟨hleave.trans (.past_of_kind hu (by decide)), hdepth⟩
        · exact Result.Moves.fail_here.behind hleave hdepth
  · exact .fail_here
termination_by 2 * c.remaining
decreasing_by
  show 2 * c.past.remaining + 1 < 2 * c.remaining
  omega

end

/-! ## Statements and programs -/

theorem moves_expect {bound : Nat} {kind : TokenKind} {h} (hne : kind ≠ .eof) :
    (.of (c.expect kind) h : Result Token bound).Moves c := by
  by_cases ht : c.isAhead [kind] = true
  · simp only [expect, if_pos ht]
    exact ⟨.past_of_kind (c.isAhead_singleton.1 ht) hne, rfl⟩
  · simp only [expect, if_neg ht]
    exact .fail_here

theorem moves_expectWord {bound : Nat} {word : String} {h} :
    (.of (c.expectWord word) h : Result Token bound).Moves c := by
  by_cases ht : c.isWordAhead word = true
  · simp only [expectWord, if_pos ht]
    exact ⟨.past (Token.ne_eof_of_isWord ht), rfl⟩
  · simp only [expectWord, if_neg ht]
    exact .fail_here

theorem moves_parseIfThen (c : Cursor) : c.parseIfThen.Moves c := by
  rw [parseIfThen]
  refine (moves_parseExpr c).andThen fun _ _ _ => ?_
  refine moves_expectWord.andThen fun _ _ _ => ?_
  exact (moves_expect (by decide)).andThen fun _ _ _ => .done_here

theorem isAhead_pair {k k' : TokenKind} :
    c.isAhead [k, k'] = true ↔ c.current.kind = k ∧ c.past.current.kind = k' := by
  simp [isAhead, current, peek, past, tokenAt]

theorem moves_parseStatement (c : Cursor) : c.parseStatement.Moves c := by
  rw [parseStatement]
  split
  · rename_i h
    obtain ⟨ht, hu⟩ := isAhead_pair.1 h
    have hpast : c.Advances c.past.past :=
      Advances.trans (.past_of_kind ht (by decide)) (.past_of_kind hu (by decide))
    exact ((moves_parseExpr _).behind hpast rfl).widen.andThen fun _ _ _ => .done_here
  split
  · rename_i h
    have hpast : c.Advances c.past := .past (Token.ne_eof_of_isWord h)
    exact ((moves_parseExpr _).behind hpast rfl).widen.andThen fun _ _ _ => .done_here
  split
  · rename_i h
    have hpast : c.Advances c.past := .past (Token.ne_eof_of_isWord h)
    exact ((moves_expect (by decide)).behind hpast rfl).andThen fun _ _ _ => .done_here
  split
  · rename_i h
    have hpast : c.Advances c.past := .past (Token.ne_eof_of_isWord h)
    exact ((moves_parseIfThen _).behind hpast rfl).widen
  · exact .fail_here

theorem moves_parseProgramFrom {bound : Nat} {p : Program} {h : c.remaining < bound} :
    (c.parseProgramFrom bound p h).Moves c := by
  fun_induction parseProgramFrom c bound p h with
  | case1 c p h ht _ ih => exact ih.behind (.past_of_kind ht (by decide)) rfl
  | case2 c p h hl he => exact .done_here
  | case3 c p h hl he ht _ labels ih => exact ih.behind (.past_of_kind ht (by decide)) rfl
  | case4 c p h hl he hb e c' hp =>
    have hs := moves_parseStatement c
    rwa [hp] at hs
  | case5 c p h hl he hb s c' shorter hp statements ih =>
    have hs := moves_parseStatement c
    rw [hp] at hs
    exact ih.behind hs.1 hs.2

theorem moves_parseProgram (c : Cursor) : c.parseProgram.Moves c := moves_parseProgramFrom

end GotoBasic.Cursor
