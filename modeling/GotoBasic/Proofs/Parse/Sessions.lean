/-
  Cursors stay in bounds, whatever is called on them.

  * `Call`, `Cursor.perform`, `Cursor.performAll`: calls on a cursor, one after
    the other, also after some have failed;
  * `Cursor.Kept`: what one call keeps; `sessions_bounded`: every call in every
    session does.
-/
import GotoBasic.Proofs.Parse.Moves

namespace GotoBasic

/-! ## Calls on a cursor -/

/-- A call on a cursor. -/
inductive Call where
  | program
  | statement
  | expr
  | atomic
  | next
  | accept (kind : TokenKind)
  | acceptWord (word : String)
  | expect (kind : TokenKind)
  | expectWord (word : String)

/-- The call parses something. -/
def Call.parses : Call → Bool
  | program | statement | expr | atomic => true
  | next | accept _ | acceptWord _ | expect _ | expectWord _ => false

/-- The call parses something that has a token at least. -/
def Call.passes : Call → Bool
  | statement | expr | atomic => true
  | program | next | accept _ | acceptWord _ | expect _ | expectWord _ => false

namespace Cursor

/-- Whether the call succeeds, and the cursor then. -/
def perform (c : Cursor) : Call → Bool × Cursor
  | .program => c.program.map Except.isOk id
  | .statement => c.statement.map Except.isOk id
  | .expr => c.expr.map Except.isOk id
  | .atomic => c.atomic.map Except.isOk id
  | .next => (true, c.next.2)
  | .accept kind => (true, (c.accept kind).2)
  | .acceptWord word => (true, (c.acceptWord word).2)
  | .expect kind => (c.expect kind).map Except.isOk id
  | .expectWord word => (c.expectWord word).map Except.isOk id

/-- The cursor after calls that are made one after the other. -/
def performAll (c : Cursor) : List Call → Cursor
  | [] => c
  | call :: later => (c.perform call).2.performAll later

/-- What a call keeps that leads from the cursor `c` to `c'`: the cursor goes
    forward, and a parse does not take it beyond the tokens.  The number of
    open parentheses stays in bounds; it changes only if a parse fails, which
    leaves no fewer open. -/
structure Kept (c : Cursor) (call : Call) (succeeds : Bool) (c' : Cursor) : Prop where
  tokens : c'.tokens = c.tokens
  forward : c.position ≤ c'.position
  passes : call.passes = true → succeeds = true → c.position < c'.position
  inside : call.parses = true → c'.position ≤ max c.position c.tokens.size
  depth_nonneg : 0 ≤ c'.depth
  depth_le : c'.depth ≤ maxNesting
  depth_eq : call.parses = false ∨ succeeds = true → c'.depth = c.depth
  le_depth : c.depth ≤ c'.depth

section
variable {α : Type} {bound : Nat} {c : Cursor} {call : Call}

/-- Passing tokens, or none, keeps these. -/
theorem Kept.of_position {succeeds : Bool} {n : Nat} (h0 : 0 ≤ c.depth) (hd : c.depth ≤ maxNesting)
    (hparses : call.parses = false) (hpasses : call.passes = false) :
    c.Kept call succeeds { c with position := c.position + n } where
  tokens := rfl
  forward := Nat.le_add_right _ n
  passes h := by simp [hpasses] at h
  inside h := by simp [hparses] at h
  depth_nonneg := h0
  depth_le := hd
  depth_eq _ := rfl
  le_depth := Int.le_refl _

/-- A parse from the cursor on keeps these. -/
theorem Kept.of_moves {r : Result α bound} (h0 : 0 ≤ c.depth) (hd : c.depth ≤ maxNesting)
    (hr : r.Moves c) (hpasses : call.passes = true → bound ≤ c.remaining)
    (hparses : call.parses = true) : c.Kept call r.outcome.1.isOk r.outcome.2 := by
  cases r with
  | done a c' shorter =>
    obtain ⟨hadvances, heq⟩ := hr
    exact {
      tokens := hadvances.tokens
      forward := hadvances.forward
      passes h _ := hadvances.position_lt (Nat.lt_of_lt_of_le shorter (hpasses h))
      inside _ := hadvances.inside
      depth_nonneg := heq ▸ h0
      depth_le := heq ▸ hd
      depth_eq _ := heq
      le_depth := Int.le_of_eq heq.symm }
  | failed e c' =>
    obtain ⟨hadvances, hle, hmax⟩ := hr
    exact {
      tokens := hadvances.tokens
      forward := hadvances.forward
      passes _ h := by cases h
      inside _ := hadvances.inside
      depth_nonneg := Int.le_trans h0 hle
      depth_le := Int.le_trans hmax (Int.max_le.2 ⟨hd, Int.le_refl _⟩)
      depth_eq h := by
        rcases h with h | h
        · rw [hparses] at h; cases h
        · cases h
      le_depth := hle }

/-- **A call keeps the cursor in bounds.** -/
theorem kept_perform (h0 : 0 ≤ c.depth) (hd : c.depth ≤ maxNesting) (call : Call) :
    c.Kept call (c.perform call).1 (c.perform call).2 := by
  cases call with
  | program => exact .of_moves h0 hd (moves_parseProgram c) (by simp [Call.passes]) rfl
  | statement => exact .of_moves h0 hd (moves_parseStatement c) (fun _ => Nat.le_refl _) rfl
  | expr => exact .of_moves h0 hd (moves_parseExpr c) (fun _ => Nat.le_refl _) rfl
  | atomic => exact .of_moves h0 hd (moves_parseAtomic c) (fun _ => Nat.le_refl _) rfl
  | next => exact .of_position h0 hd rfl rfl
  | accept | acceptWord | expect | expectWord =>
    -- a token is passed, or none
    simp only [perform, accept, acceptWord, expect, expectWord]
    split
    · exact .of_position h0 hd rfl rfl
    · exact .of_position (n := 0) h0 hd rfl rfl

/-! ## Sessions -/

theorem performAll_append (c : Cursor) (calls later : List Call) :
    c.performAll (calls ++ later) = (c.performAll calls).performAll later := by
  induction calls generalizing c with
  | nil => rfl
  | cons call calls ih => exact ih (c.perform call).2

/-- Calls made one after the other keep the cursor in bounds. -/
theorem performAll_bounded (h0 : 0 ≤ c.depth) (hd : c.depth ≤ maxNesting) (calls : List Call) :
    (c.performAll calls).tokens = c.tokens ∧ 0 ≤ (c.performAll calls).depth ∧
      (c.performAll calls).depth ≤ maxNesting ∧ c.position ≤ (c.performAll calls).position := by
  induction calls generalizing c with
  | nil => exact ⟨rfl, h0, hd, Nat.le_refl c.position⟩
  | cons call later ih =>
    have hk := kept_perform h0 hd call
    obtain ⟨htokens, hnonneg, hle, hposition⟩ := ih hk.depth_nonneg hk.depth_le
    exact ⟨htokens.trans hk.tokens, hnonneg, hle, Nat.le_trans hk.forward hposition⟩

end

/-- **Cursors stay in bounds**, whatever the tokens and whatever was called
    before, calls that failed among them: the number of open parentheses is
    not negative and no larger than is allowed, the cursor never goes back, and
    each call keeps what `Kept` says.  All calls come to an end, as the parsers
    recurse on the tokens that are left. -/
theorem sessions_bounded (tokens : List Token) (calls : List Call) :
    ((ofTokens tokens).performAll calls).tokens = tokens.toArray ∧
      0 ≤ ((ofTokens tokens).performAll calls).depth ∧
      ((ofTokens tokens).performAll calls).depth ≤ maxNesting ∧
      (∀ later, ((ofTokens tokens).performAll calls).position ≤
        ((ofTokens tokens).performAll (calls ++ later)).position) ∧
      ∀ call, ((ofTokens tokens).performAll calls).Kept call
        (((ofTokens tokens).performAll calls).perform call).1
        (((ofTokens tokens).performAll calls).perform call).2 := by
  obtain ⟨htokens, hnonneg, hle, -⟩ :=
    performAll_bounded (c := ofTokens tokens) (Int.le_refl 0) (Int.natCast_nonneg _) calls
  refine ⟨htokens, hnonneg, hle, fun later => ?_, kept_perform hnonneg hle⟩
  rw [performAll_append]
  exact (performAll_bounded hnonneg hle later).2.2.2

/-- An error inside two parentheses leaves them open, and the expression on the
    next line is parsed there. -/
example : ((ofTokens (Token.scan "((\nx")).performAll [.expr, .next, .expr]).position = 4 ∧
    ((ofTokens (Token.scan "((\nx")).performAll [.expr, .next, .expr]).depth = 2 := by
  decide +kernel

end Cursor

end GotoBasic
