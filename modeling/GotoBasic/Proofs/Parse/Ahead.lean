/-
  Parsing the tokens ahead of a cursor.

  The parsers once more, as functions of the list of the tokens ahead and of
  the number of open parentheses: for proofs about what is parsed, which do
  not ask where in the array the cursor is.

  * `Parsed α bound`: a result together with the tokens that are left, fewer
    than `bound`; or a complaint, the tokens from the offending one on, and
    the number of open parentheses there;
  * `parseExpr`, `parseStatement`, `parseProgram`: the parsers;
  * `Cursor.Result.Agrees`: a parse with a cursor and one of a list agree;
    `agrees_parseExpr`, `agrees_parseStatement`, `agrees_parseProgram`: this
    is so for the tokens that are ahead of a cursor;
  * `ofTokens_eq_result`: so the program of a list of tokens is found in the
    list.
-/
import GotoBasic.Proofs.Parse.Moves

namespace GotoBasic

/-! ## Results -/

theorem Token.length_lt_cons (t : Token) (rest : List Token) :
    rest.length < (t :: rest).length :=
  Nat.lt_succ_self _

theorem Token.length_lt_of_cons {t : Token} {rest : List Token} {bound : Nat}
    (h : (t :: rest).length < bound) : rest.length < bound :=
  Nat.lt_of_succ_lt h

/-- The result of parsing some of a list of tokens. -/
inductive Parsed (α : Type) (bound : Nat) where
  | done (result : α) (rest : List Token) (shorter : rest.length < bound)
  | failed (complaint : Complaint) (rest : List Token) (depth : Nat)

namespace Parsed

variable {α β : Type} {bound : Nat}

/-- Goes on with the result and the tokens that are left. -/
def andThen (p : Parsed α bound)
    (next : α → (rest : List Token) → rest.length < bound → Parsed β bound) : Parsed β bound :=
  match p with
  | done a rest shorter => next a rest shorter
  | failed complaint rest depth => failed complaint rest depth

/-- The same result below a larger bound. -/
def widen {larger : Nat} (h : bound ≤ larger) (p : Parsed α bound) : Parsed α larger :=
  match p with
  | done a rest shorter => done a rest (Nat.lt_of_lt_of_le shorter h)
  | failed complaint rest depth => failed complaint rest depth

end Parsed

/-! ## Parsers -/

mutual

/-- An expression in front of the tokens. -/
def parseExpr (depth : Nat) (tokens : List Token) : Parsed Expr tokens.length :=
  match parseAtomic depth tokens with
  | .failed complaint rest d => .failed complaint rest d
  | .done left rest shorter => parseChain tokens.length depth left rest shorter
termination_by 2 * tokens.length + 1
decreasing_by all_goals omega

/-- The operators and operands that follow the operand `left`. -/
def parseChain (bound depth : Nat) (left : Expr) (tokens : List Token)
    (shorter : tokens.length < bound) : Parsed Expr bound :=
  match tokens with
  | [] => .done left [] shorter
  | t :: rest =>
    if t.joins then
      match parseAtomic depth rest with
      | .failed complaint rest d => .failed complaint rest d
      | .done right after shorter' =>
        parseChain bound depth (.binary left (.text t.text) right) after
          (Nat.lt_trans shorter' (Token.length_lt_of_cons shorter))
    else .done left (t :: rest) shorter
termination_by 2 * tokens.length + 1
decreasing_by all_goals (simp only [List.length_cons] at *; omega)

/-- An operand in front of the tokens. -/
def parseAtomic (depth : Nat) (tokens : List Token) : Parsed Expr tokens.length :=
  match tokens with
  | [] => .failed .noExpression [] depth
  | t :: rest =>
    match t.kind with
    | .word => .done (.var (.text t.text)) rest (t.length_lt_cons rest)
    | .number =>
      (Number.ofGrouped? t.text).elim (.failed (.unreadable t.text) rest depth)
        fun x => .done (.literal (.number x)) rest (t.length_lt_cons rest)
    | .string => .done (.literal (.text t.text)) rest (t.length_lt_cons rest)
    | .leftParen =>
      if depth ≥ maxNesting then .failed .tooDeep (t :: rest) depth
      else
        match parseExpr (depth + 1) rest with
        | .failed complaint rest d => .failed complaint rest d
        | .done _ [] _ => .failed (.unmatched t.place) [] depth
        | .done inner (u :: after) shorter =>
          if u.kind = .rightParen then
            .done inner after
              (Nat.lt_trans (Token.length_lt_of_cons shorter) (t.length_lt_cons rest))
          else .failed (.unmatched t.place) (u :: after) depth
    | _ => .failed .noExpression (t :: rest) depth
termination_by 2 * tokens.length
decreasing_by simp only [List.length_cons] at *; omega

end

/-- A token of the given kind in front of the tokens. -/
def parseToken (kind : TokenKind) (depth : Nat) :
    (tokens : List Token) → Parsed Token tokens.length
  | [] => .failed (.expected kind) [] depth
  | t :: rest =>
    if t.kind = kind then .done t rest (t.length_lt_cons rest)
    else .failed (.expected kind) (t :: rest) depth

/-- The given word in front of the tokens. -/
def parseWord (word : String) (depth : Nat) :
    (tokens : List Token) → Parsed Token tokens.length
  | [] => .failed (.expectedWord word) [] depth
  | t :: rest =>
    if t.isWord word then .done t rest (t.length_lt_cons rest)
    else .failed (.expectedWord word) (t :: rest) depth

/-- What stands after `if`: a condition, `then` and a label. -/
def parseIfThen (depth : Nat) (tokens : List Token) : Parsed Statement tokens.length :=
  (parseExpr depth tokens).andThen fun condition rest shorter =>
    ((parseWord "then" depth rest).widen (Nat.le_of_lt shorter)).andThen fun _ rest shorter =>
      ((parseToken .word depth rest).widen (Nat.le_of_lt shorter)).andThen fun label rest shorter =>
        .done (.ifThen condition (.text label.text)) rest shorter

/-- Whether the tokens start with an equals sign. -/
def startsWithEquals : List Token → Bool
  | [] => false
  | t :: _ => t.kind == .equals

/-- A statement in front of the tokens. -/
def parseStatement (depth : Nat) (tokens : List Token) : Parsed Statement tokens.length :=
  match tokens with
  | [] => .failed .unexpected [] depth
  | t :: rest =>
    if t.kind = .word ∧ startsWithEquals rest = true then
      (((parseExpr depth rest.tail).widen (by simp; omega)).andThen fun expr rest shorter =>
        .done (.assign (.text t.text) expr) rest shorter)
    else if t.isWord "print" then
      ((parseExpr depth rest).widen (Nat.le_succ _)).andThen fun expr rest shorter =>
        .done (.print expr) rest shorter
    else if t.isWord "goto" then
      ((parseToken .word depth rest).widen (Nat.le_succ _)).andThen fun label rest shorter =>
        .done (.goto (.text label.text)) rest shorter
    else if t.isWord "if" then (parseIfThen depth rest).widen (Nat.le_succ _)
    else .failed .unexpected (t :: rest) depth

/-- The program in front of the tokens, after the statements and labels of
    `program`. -/
def parseProgramFrom (bound depth : Nat) (program : Program) (tokens : List Token)
    (shorter : tokens.length < bound) : Parsed Program bound :=
  match tokens with
  | [] => .done program [] shorter
  | t :: rest =>
    match t.kind with
    | .line => parseProgramFrom bound depth program rest (Token.length_lt_of_cons shorter)
    | .eof => .done program (t :: rest) shorter
    | .label =>
      let labels := program.labels.put t.text program.statements.size
      parseProgramFrom bound depth { program with labels } rest (Token.length_lt_of_cons shorter)
    | _ =>
      match parseStatement depth (t :: rest) with
      | .failed complaint rest d => .failed complaint rest d
      | .done statement after shorter' =>
        let statements := program.statements.push statement
        parseProgramFrom bound depth { program with statements } after
          (Nat.lt_trans shorter' shorter)
termination_by tokens.length
decreasing_by all_goals (simp only [List.length_cons] at *; omega)

/-- The program in front of the tokens. -/
def parseProgram (depth : Nat) (tokens : List Token) : Parsed Program (tokens.length + 1) :=
  parseProgramFrom (tokens.length + 1) depth .empty tokens (Nat.lt_add_one _)

theorem parseProgramFrom_of_end {bound d : Nat} {p : Program} {ts : List Token} {h}
    (ht : ∀ t ∈ ts.head?, t.kind = .eof) : parseProgramFrom bound d p ts h = .done p ts h := by
  cases ts with
  | nil => rw [parseProgramFrom]
  | cons t ts =>
    have hk : t.kind = .eof := ht t rfl
    rw [parseProgramFrom]
    simp only [hk]

theorem parseProgramFrom_statement {bound d : Nat} {p : Program} {t : Token}
    {ts : List Token} {h} (hl : t.kind ≠ .line)
    (he : t.kind ≠ .eof) (hb : t.kind ≠ .label) :
    parseProgramFrom bound d p (t :: ts) h =
      match parseStatement d (t :: ts) with
      | .failed complaint rest d => .failed complaint rest d
      | .done s rest shorter =>
        parseProgramFrom bound d { p with statements := p.statements.push s } rest
          (Nat.lt_trans shorter h) := by
  rw [parseProgramFrom]
  split
  · contradiction
  · contradiction
  · contradiction
  · cases parseStatement d (t :: ts) <;> rfl

/-! ## The tokens ahead of a cursor -/

namespace Cursor

variable {c : Cursor} {t : Token} {tokens : List Token}

/-- The tokens from the cursor on. -/
def rest (c : Cursor) : List Token := c.tokens.toList.drop c.position

theorem current_eq (c : Cursor) : c.current = c.rest.headD (.endAfter c.tokens.toList) := by
  rw [List.headD_eq_head?_getD, rest, List.head?_drop, Array.getElem?_toList]
  simp only [current, peek, tokenAt, Nat.add_zero]
  cases c.tokens[c.position]? <;> rfl

/-- Behind the last token is the end of the text. -/
theorem kind_of_rest_nil (h : c.rest = []) : c.current.kind = .eof := by
  rw [current_eq, h]
  rfl

theorem current_of_rest (h : c.rest = t :: tokens) : c.current = t := by
  rw [current_eq, h]
  rfl

theorem rest_past (h : c.rest = t :: tokens) : c.past.rest = tokens := by
  have htail : c.past.rest = c.rest.tail := by simp [rest, past, List.tail_drop]
  rw [htail, h]
  rfl

theorem exists_rest (h : c.rest = tokens) (hne : c.current.kind ≠ .eof) :
    ∃ us, tokens = c.current :: us ∧ c.past.rest = us := by
  cases tokens with
  | nil => exact absurd (kind_of_rest_nil h) hne
  | cons t us => exact ⟨us, by rw [current_of_rest h], rest_past h⟩

/-! ## Agreement -/

/-- The parse with a cursor and the parse of a list agree: the cursor that is
    left is in front of the tokens that are left, and where an error is, it has
    as many open parentheses. -/
inductive Result.Agrees {α : Type} {bound bound' : Nat} :
    Result α bound → Parsed α bound' → Prop
  | done {a c rest h h'} : Cursor.rest c = rest → Agrees (.done a c h) (.done a rest h')
  | failed {c : Cursor} {complaint rest} {d : Nat} : c.rest = rest → c.depth = d →
      Agrees (.failed (c.complain complaint) c) (.failed complaint rest d)

-- The three theorems follow the recursion of the parsers.
mutual

theorem agrees_parseExpr {c : Cursor} {d : Nat} {tokens : List Token} (hr : c.rest = tokens)
    (hd : c.depth = d) : c.parseExpr.Agrees (GotoBasic.parseExpr d tokens) := by
  rw [parseExpr, GotoBasic.parseExpr]
  have ha := agrees_parseAtomic hr hd
  have hm := moves_parseAtomic c
  generalize c.parseAtomic = r at ha hm ⊢
  generalize GotoBasic.parseAtomic d tokens = p at ha ⊢
  cases ha with
  | failed hr' hd' => exact .failed hr' hd'
  | done hr' => exact agrees_parseChain hr' (hm.2.trans hd)
termination_by 2 * c.remaining + 1
decreasing_by all_goals omega

theorem agrees_parseChain {c : Cursor} {d bound bound' : Nat} {left : Expr}
    {tokens : List Token} {h h'} (hr : c.rest = tokens) (hd : c.depth = d) :
    (c.parseChain bound left h).Agrees (GotoBasic.parseChain bound' d left tokens h') := by
  rw [parseChain]
  match tokens, h', hr with
  | [], h', hr =>
    have hj : ¬ c.current.joins = true := by simp [Token.joins, kind_of_rest_nil hr]
    rw [dif_neg hj, GotoBasic.parseChain]
    exact .done hr
  | t :: tokens, h', hr =>
    obtain rfl := current_of_rest hr
    rw [GotoBasic.parseChain]
    split
    · rename_i hj
      have hlt := remaining_past_lt (Token.ne_eof_of_joins hj)
      have ha := agrees_parseAtomic (rest_past hr) (c := c.past) hd
      have hm := moves_parseAtomic c.past
      dsimp only
      generalize c.past.parseAtomic = r at ha hm ⊢
      generalize GotoBasic.parseAtomic d tokens = p at ha ⊢
      cases ha with
      | failed hr' hd' => exact .failed hr' hd'
      | done hr' => exact agrees_parseChain hr' (hm.2.trans hd)
    · exact .done hr
termination_by 2 * c.remaining + 1
decreasing_by all_goals omega

theorem agrees_parseAtomic {c : Cursor} {d : Nat} {tokens : List Token} (hr : c.rest = tokens)
    (hd : c.depth = d) : c.parseAtomic.Agrees (GotoBasic.parseAtomic d tokens) := by
  rw [parseAtomic]
  match tokens, hr with
  | [], hr =>
    have hk := kind_of_rest_nil hr
    rw [dif_neg (by simp [hk]), dif_neg (by simp [hk]), dif_neg (by simp [hk]),
      dif_neg (by simp [hk]), GotoBasic.parseAtomic]
    exact .failed hr hd
  | t :: tokens, hr =>
    obtain rfl := current_of_rest hr
    have hpast := rest_past hr
    rw [GotoBasic.parseAtomic]
    split
    · rename_i hk
      simp only [hk]
      exact .done hpast
    split
    · rename_i hk
      simp only [hk]
      cases Number.ofGrouped? c.current.text with
      | none => exact .failed hpast hd
      | some x => exact .done hpast
    split
    · rename_i hk
      simp only [hk]
      exact .done hpast
    split
    · rename_i hk
      have hlt := remaining_past_lt_of_kind hk (by decide)
      have hdeep : c.depth ≥ maxNesting ↔ d ≥ maxNesting := by omega
      simp only [hk, hdeep]
      split
      · exact .failed hr hd
      · have hi := agrees_parseExpr (c := c.past.enter) (d := d + 1) hpast
          (by simp [enter, past, hd])
        have hm := moves_parseExpr c.past.enter
        generalize c.past.enter.parseExpr = r at hi hm ⊢
        generalize GotoBasic.parseExpr (d + 1) tokens = p at hi ⊢
        cases hi with
        | failed hr' hd' => exact .failed hr' hd'
        | @done inner c' rest shorter shorter' hinner =>
          -- the parenthesis does not count any more, and the tokens are the same
          have hd' : c'.leave.depth = d := hm.depth_leave.trans hd
          have hr' : c'.leave.rest = rest := hinner
          cases rest with
          | nil =>
            dsimp only
            rw [if_neg (by simp [kind_of_rest_nil hr'])]
            exact .failed hr' hd'
          | cons u rest =>
            obtain rfl := current_of_rest hr'
            dsimp only
            split
            · exact .done (rest_past hr')
            · exact .failed hr' hd'
    · -- a token of no other kind starts an operand
      split <;> first | contradiction | exact .failed hr hd
termination_by 2 * c.remaining
decreasing_by
  show 2 * c.past.remaining + 1 < 2 * c.remaining
  omega

end

/-! ## Statements and programs -/

namespace Result.Agrees

variable {α β : Type} {bound bound' larger : Nat} {r : Result α bound}
  {p : Parsed α bound'}

theorem widen_left {h : bound ≤ larger} (ha : r.Agrees p) : (r.widen h).Agrees p := by
  cases ha with
  | done hr => exact .done hr
  | failed hr hd => exact .failed hr hd

theorem widen_right {h : bound' ≤ larger} (ha : r.Agrees p) : r.Agrees (p.widen h) := by
  cases ha with
  | done hr => exact .done hr
  | failed hr hd => exact .failed hr hd

theorem andThen_done {f : α → β} (ha : r.Agrees p) :
    (r.andThen fun a c h => .done (f a) c h).Agrees
      (p.andThen fun a rest h => .done (f a) rest h) := by
  cases ha with
  | done hr => exact .done hr
  | failed hr hd => exact .failed hr hd

/-- They go on in agreement, as the cursor has as many parentheses open as it
    had. -/
theorem andThen {c : Cursor} {next : α → (c : Cursor) → c.remaining < bound → Result β bound}
    {next' : α → (rest : List Token) → rest.length < bound' → Parsed β bound'}
    (ha : r.Agrees p) (hm : r.Moves c)
    (hn : ∀ a c' rest h h', c'.rest = rest → c'.depth = c.depth →
      (next a c' h).Agrees (next' a rest h')) :
    (r.andThen next).Agrees (p.andThen next') := by
  cases ha with
  | done hr => exact hn _ _ _ _ _ hr hm.2
  | failed hr hd => exact .failed hr hd

end Result.Agrees

section
variable {d : Nat}

theorem agrees_expect {kind : TokenKind} {bound : Nat} {h} (hne : kind ≠ .eof)
    (hr : c.rest = tokens) (hd : c.depth = d) :
    (.of (c.expect kind) h : Result Token bound).Agrees (parseToken kind d tokens) := by
  have hiff : c.isAhead [kind] = true ↔ c.current.kind = kind := c.isAhead_singleton
  cases tokens with
  | nil =>
    have hk : c.current.kind ≠ kind := by rw [kind_of_rest_nil hr]; exact hne.symm
    simp only [expect, if_neg (mt hiff.1 hk)]
    exact .failed hr hd
  | cons t tokens =>
    obtain rfl := current_of_rest hr
    rw [parseToken]
    by_cases hk : c.current.kind = kind
    · simp only [expect, if_pos (hiff.2 hk), if_pos hk]
      exact .done (rest_past hr)
    · simp only [expect, if_neg (mt hiff.1 hk), if_neg hk]
      exact .failed hr hd

theorem not_isWordAhead_of_rest_nil {word : String} (h : c.rest = []) :
    ¬ c.isWordAhead word = true := by
  simp [isWordAhead, Token.isWord, kind_of_rest_nil h]

theorem agrees_expectWord {word : String} {bound : Nat} {h} (hr : c.rest = tokens)
    (hd : c.depth = d) :
    (.of (c.expectWord word) h : Result Token bound).Agrees (parseWord word d tokens) := by
  cases tokens with
  | nil =>
    simp only [expectWord, if_neg (not_isWordAhead_of_rest_nil hr)]
    exact .failed hr hd
  | cons t tokens =>
    obtain rfl := current_of_rest hr
    rw [parseWord, ← isWordAhead]
    by_cases hw : c.isWordAhead word = true
    · simp only [expectWord, if_pos hw]
      exact .done (rest_past hr)
    · simp only [expectWord, if_neg hw]
      exact .failed hr hd

theorem agrees_parseIfThen (hr : c.rest = tokens) (hd : c.depth = d) :
    c.parseIfThen.Agrees (GotoBasic.parseIfThen d tokens) := by
  rw [parseIfThen, GotoBasic.parseIfThen]
  refine (agrees_parseExpr hr hd).andThen (moves_parseExpr c) fun _ c₁ _ _ _ hr₁ hd₁ => ?_
  refine (agrees_expectWord hr₁ (hd₁.trans hd)).widen_right.andThen moves_expectWord
    fun _ c₂ _ _ _ hr₂ hd₂ => ?_
  exact (agrees_expect (by decide) hr₂ (hd₂.trans (hd₁.trans hd))).widen_right.andThen_done

theorem startsWithEquals_rest : startsWithEquals c.rest = true ↔ c.current.kind = .equals := by
  rw [current_eq]
  cases c.rest with
  | nil => simp [startsWithEquals, Token.endAfter]
  | cons t tokens => simp [startsWithEquals]

theorem agrees_parseStatement (hr : c.rest = tokens) (hd : c.depth = d) :
    c.parseStatement.Agrees (GotoBasic.parseStatement d tokens) := by
  rw [parseStatement]
  cases tokens with
  | nil =>
    have hassign : ¬ c.isAhead [.word, .equals] = true := by
      simp [isAhead_pair, kind_of_rest_nil hr]
    rw [if_neg hassign, if_neg (not_isWordAhead_of_rest_nil hr),
      dif_neg (not_isWordAhead_of_rest_nil hr), if_neg (not_isWordAhead_of_rest_nil hr)]
    exact .failed hr hd
  | cons t tokens =>
    obtain rfl := current_of_rest hr
    have hpast := rest_past hr
    have hassign : c.isAhead [.word, .equals] = true ↔
        c.current.kind = .word ∧ startsWithEquals tokens = true := by
      rw [isAhead_pair, ← hpast, startsWithEquals_rest]
    rw [GotoBasic.parseStatement]
    have hword : ∀ word, c.current.isWord word = c.isWordAhead word := fun _ => rfl
    simp only [hword]
    by_cases ha : c.isAhead [.word, .equals] = true
    · rw [if_pos ha, if_pos (hassign.1 ha)]
      have hrest : c.past.past.rest = tokens.tail := by
        cases tokens with
        | nil => simp [startsWithEquals, ha] at hassign
        | cons u tokens => exact rest_past hpast
      exact (agrees_parseExpr hrest hd).widen_left.widen_right.andThen_done
    rw [if_neg ha, if_neg (mt hassign.2 ha)]
    by_cases hp : c.isWordAhead "print" = true
    · rw [if_pos hp, if_pos hp]
      exact (agrees_parseExpr hpast hd).widen_left.widen_right.andThen_done
    rw [if_neg hp, if_neg hp]
    by_cases hg : c.isWordAhead "goto" = true
    · rw [dif_pos hg, if_pos hg]
      exact (agrees_expect (by decide) hpast hd).widen_right.andThen_done
    rw [dif_neg hg, if_neg hg]
    by_cases hi : c.isWordAhead "if" = true
    · rw [if_pos hi, if_pos hi]
      exact (agrees_parseIfThen hpast hd).widen_left.widen_right
    rw [if_neg hi, if_neg hi]
    exact .failed hr hd

theorem agrees_parseProgramFrom {bound bound' : Nat} {program : Program} {h h'}
    (hr : c.rest = tokens) (hd : c.depth = d) :
    (c.parseProgramFrom bound program h).Agrees
      (GotoBasic.parseProgramFrom bound' d program tokens h') := by
  fun_induction parseProgramFrom c bound program h generalizing tokens with
  | case1 c p h hk hlt ih =>
    obtain ⟨us, rfl, hus⟩ := exists_rest hr (by simp [hk])
    rw [GotoBasic.parseProgramFrom]
    simp only [hk]
    exact ih hus hd
  | case2 c p h hl he =>
    have hend : ∀ t ∈ tokens.head?, t.kind = .eof := by
      intro t ht
      obtain ⟨us, rfl⟩ := List.head?_eq_some_iff.1 ht
      rwa [current_of_rest hr] at he
    rw [parseProgramFrom_of_end hend]
    exact .done hr
  | case3 c p h hl he hk hlt labels =>
    rename_i ih
    obtain ⟨us, rfl, hus⟩ := exists_rest hr he
    rw [GotoBasic.parseProgramFrom]
    simp only [hk]
    exact ih hus hd
  | case4 c p h hl he hb e c' hp =>
    obtain ⟨us, rfl, hus⟩ := exists_rest hr he
    have hs := agrees_parseStatement hr hd
    rw [parseProgramFrom_statement hl he hb]
    rw [hp] at hs
    generalize GotoBasic.parseStatement d _ = q at hs ⊢
    cases hs with
    | failed hr' hd' => exact .failed hr' hd'
  | case5 c p h hl he hb s c' shorter hp statements =>
    rename_i ih
    obtain ⟨us, rfl, hus⟩ := exists_rest hr he
    have hs := agrees_parseStatement hr hd
    have hm := moves_parseStatement c
    rw [parseProgramFrom_statement hl he hb]
    rw [hp] at hs hm
    generalize GotoBasic.parseStatement d _ = q at hs ⊢
    cases hs with
    | done hr' => exact ih hr' (hm.2.trans hd)

theorem agrees_parseProgram (hr : c.rest = tokens) (hd : c.depth = d) :
    c.parseProgram.Agrees (GotoBasic.parseProgram d tokens) :=
  agrees_parseProgramFrom hr hd

end

theorem rest_ofTokens (tokens : List Token) : (ofTokens tokens).rest = tokens := by
  simp [ofTokens, rest]

/-- The program that is parsed from the first token on. -/
theorem agrees_ofTokens (tokens : List Token) :
    (ofTokens tokens).parseProgram.Agrees (GotoBasic.parseProgram 0 tokens) :=
  agrees_parseProgram (rest_ofTokens tokens) rfl

end Cursor

/-- The result of a parse; an error is about the first token that is left, or
    about `last`. -/
def Parsed.result {α : Type} {bound : Nat} (last : Token) :
    Parsed α bound → Except ParseError α
  | done a _ _ => .ok a
  | failed complaint rest _ => .error ⟨complaint, rest.headD last⟩

/-- **The program of a list of tokens** is the one that is parsed from the
    list. -/
theorem ofTokens_eq_result (ts : List Token) :
    Program.ofTokens ts = (parseProgram 0 ts).result (.endAfter ts) := by
  rw [Program.ofTokens, Cursor.program]
  have ha := Cursor.agrees_ofTokens ts
  have hm := Cursor.moves_parseProgram (.ofTokens ts)
  generalize (Cursor.ofTokens ts).parseProgram = r at ha hm ⊢
  generalize parseProgram 0 ts = p at ha ⊢
  cases ha with
  | done => rfl
  | @failed c complaint rest d hr _ =>
    have htokens : c.tokens.toList = ts := by rw [hm.1.tokens]; rfl
    rw [Cursor.Result.outcome, Cursor.complain, Cursor.current_eq, htokens, hr]
    rfl

/-- The cursor stays at the token at which a parse fails. -/
theorem program_eq_of_failed {front after : List Token} {t : Token} {c : Complaint} {d : Nat}
    (h : parseProgram 0 (front ++ t :: after) = .failed c (t :: after) d) :
    (Cursor.ofTokens (front ++ t :: after)).program =
      (.error ⟨c, t⟩, ⟨(front ++ t :: after).toArray, front.length, d⟩) := by
  have ha := Cursor.agrees_ofTokens (front ++ t :: after)
  have hm := Cursor.moves_parseProgram (.ofTokens (front ++ t :: after))
  rw [Cursor.program]
  rw [h] at ha
  generalize (Cursor.ofTokens (front ++ t :: after)).parseProgram = r at ha hm ⊢
  cases ha with
  | @failed c' _ _ _ hr hd =>
    have htokens : c'.tokens = (front ++ t :: after).toArray := hm.1.tokens
    have hposition : c'.position = front.length := by
      have hlength := congrArg List.length hr
      simp only [Cursor.rest, htokens, List.length_drop, List.length_append,
        List.length_cons] at hlength
      omega
    rw [Cursor.Result.outcome, Cursor.complain, Cursor.current_of_rest hr, ← htokens, ← hposition,
      ← hd]

end GotoBasic
