/-
  Parsing the same tokens in another setting: at other places, and with other
  tokens behind them.

  * `Setting`: new places, and the tokens behind; `Setting.tokens` puts tokens
    into a setting;
  * `Setting.Shields`: there is nothing behind the tokens, or a line break in
    front of it, which no statement holds;
  * `Setting.Carries`: two parses agree, up to the setting;
  * `Setting.carries_parseStatement`: a statement is parsed alike in all
    settings; `Setting.parseProgramFrom_tokens`: so is a program, as far as
    its tokens go;
  * `ofTokens_relocate`: the places of tokens matter to complaints only.
-/
import GotoBasic.Proofs.Parse.Proper
import GotoBasic.Proofs.Token.Blocks
import GotoBasic.Proofs.Token.Munch

namespace GotoBasic

/-! ## Places -/

/-- The complaint about tokens at other places. -/
def Complaint.relocate (f : Place → Place) : Complaint → Complaint
  | unmatched opened => unmatched (f opened)
  | c => c

/-- The error with all its places moved. -/
def ParseError.relocate (f : Place → Place) (e : ParseError) : ParseError :=
  ⟨e.complaint.relocate f, e.found.relocate f⟩

section
variable (f : Place → Place) (t : Token)

@[simp] theorem Token.kind_relocate : (t.relocate f).kind = t.kind := rfl

@[simp] theorem Token.text_relocate : (t.relocate f).text = t.text := rfl

end

theorem Token.relocate_id : Token.relocate id = id := rfl

theorem ParseError.relocate_id : ParseError.relocate id = id := by
  funext e
  obtain ⟨c, found⟩ := e
  cases c <;> rfl

/-! ## Settings -/

/-- Places for tokens, and the tokens behind them. -/
structure Setting where
  place : Place → Place
  behind : List Token

namespace Setting

variable {σ : Setting} {ts rest : List Token} {t : Token} {d : Nat}

/-- The tokens in the setting. -/
def tokens (σ : Setting) (ts : List Token) : List Token :=
  ts.map (Token.relocate σ.place) ++ σ.behind

@[simp] theorem tokens_nil : σ.tokens [] = σ.behind := rfl

@[simp] theorem tokens_cons : σ.tokens (t :: ts) = t.relocate σ.place :: σ.tokens ts := rfl

/-- The tokens behind are out of reach, as there are none or a line break
    comes before them. -/
def Shields (σ : Setting) (ts : List Token) : Prop :=
  σ.behind = [] ∨ ∃ t ∈ ts, t.kind = .line

theorem Shields.tokens_eq_nil (h : σ.Shields []) : σ.tokens [] = [] := by
  simpa [Shields] using h

theorem Shields.tail (h : σ.Shields (t :: ts)) (ht : t.kind ≠ .line) : σ.Shields ts := by
  simpa [Shields, ht] using h

theorem Shields.tail_of_isWord {word : String} (h : σ.Shields (t :: ts))
    (ht : t.isWord word = true) : σ.Shields ts :=
  h.tail (by simp [(Token.isWord_iff.1 ht).1])

/-- The parses agree, the second one being in the setting, where the result
    `a` is `f a`. -/
inductive Carries (σ : Setting) {α : Type} (f : α → α) {bound bound' : Nat} :
    Parsed α bound → Parsed α bound' → Prop
  | done {a rest h h'} : σ.Shields rest →
      Carries σ f (.done a rest h) (.done (f a) (σ.tokens rest) h')
  | failed {c rest d} : σ.Shields rest →
      Carries σ f (.failed c rest d) (.failed (c.relocate σ.place) (σ.tokens rest) d)

theorem Carries.failed_nil {α : Type} {f : α → α} {bound bound' : Nat} {c : Complaint}
    (h : σ.Shields []) : Carries σ f (.failed c [] d : Parsed α bound)
      (.failed (c.relocate σ.place) [] d : Parsed α bound') := by
  simpa only [h.tokens_eq_nil] using Carries.failed h

theorem Carries.ite {α : Type} {f : α → α} {bound bound' : Nat} {c c' : Prop} [Decidable c]
    [Decidable c'] {p p' : Parsed α bound} {q q' : Parsed α bound'} (hc : c ↔ c')
    (ht : c → σ.Carries f p q) (hf : ¬ c → σ.Carries f p' q') :
    σ.Carries f (if c then p else p') (if c' then q else q') := by
  by_cases h : c
  · simpa only [if_pos h, if_pos (hc.1 h)] using ht h
  · simpa only [if_neg h, if_neg (mt hc.2 h)] using hf h

/-! ## Expressions -/

-- The three theorems follow the recursion of the parser.
mutual

theorem carries_parseExpr {ts : List Token} {d : Nat} (hs : σ.Shields ts) :
    σ.Carries id (parseExpr d ts) (parseExpr d (σ.tokens ts)) := by
  rw [parseExpr, parseExpr]
  have ha := carries_parseAtomic (d := d) hs
  generalize parseAtomic d ts = p at ha ⊢
  generalize parseAtomic d (σ.tokens ts) = q at ha ⊢
  cases ha with
  | failed hr => exact .failed hr
  | @done left rest h h' hr => exact carries_parseChain hr
termination_by 2 * ts.length + 1
decreasing_by all_goals omega

theorem carries_parseChain {ts : List Token} {d bound bound' : Nat} {left : Expr} {h h'}
    (hs : σ.Shields ts) : σ.Carries id (parseChain bound d left ts h)
      (parseChain bound' d left (σ.tokens ts) h') := by
  match ts, h, hs with
  | [], h, hs =>
    have hq : parseChain bound' d left (σ.tokens []) h' = .done left (σ.tokens []) h' := by
      simp only [hs.tokens_eq_nil]
      rw [parseChain]
    rw [hq, parseChain]
    exact .done hs
  | t :: ts, h, hs =>
    simp only [tokens_cons]
    rw [parseChain, parseChain]
    refine .ite Iff.rfl (fun ht => ?_) fun _ => .done hs
    · have hl : t.kind ≠ .line := by rcases t.kind_of_joins ht with hk | hk <;> simp [hk]
      have ha := carries_parseAtomic (d := d) (hs.tail hl)
      generalize parseAtomic d ts = p at ha ⊢
      generalize parseAtomic d (σ.tokens ts) = q at ha ⊢
      cases ha with
      | failed hr => exact .failed hr
      | @done right rest shorter _ hr => exact carries_parseChain hr
termination_by 2 * ts.length + 1
decreasing_by all_goals (simp only [List.length_cons] at *; omega)

theorem carries_parseAtomic {ts : List Token} {d : Nat} (hs : σ.Shields ts) :
    σ.Carries id (parseAtomic d ts) (parseAtomic d (σ.tokens ts)) := by
  match ts, hs with
  | [], hs =>
    rw [hs.tokens_eq_nil, parseAtomic]
    exact .failed_nil hs
  | t :: ts, hs =>
    simp only [tokens_cons]
    rw [parseAtomic, parseAtomic, Token.kind_relocate]
    split
    · rename_i hk
      exact .done (hs.tail (by simp [hk]))
    · rename_i hk
      rw [Token.text_relocate]
      cases Number.ofGrouped? t.text with
      | none => exact .failed (hs.tail (by simp [hk]))
      | some x => exact .done (hs.tail (by simp [hk]))
    · rename_i hk
      exact .done (hs.tail (by simp [hk]))
    · rename_i hk
      refine .ite Iff.rfl (fun _ => .failed hs) fun _ => ?_
      have hi := carries_parseExpr (d := d + 1) (hs.tail (t := t) (by simp [hk]))
      generalize parseExpr (d + 1) ts = p at hi ⊢
      generalize parseExpr (d + 1) (σ.tokens ts) = q at hi ⊢
      cases hi with
      | failed hr => exact .failed hr
      | @done inner rest shorter shorter' hr =>
        cases rest with
        | nil =>
          revert shorter'
          rw [hr.tokens_eq_nil]
          intro _
          exact .failed_nil hr
        | cons u rest =>
          exact .ite Iff.rfl (fun hu => .done (hr.tail (by simp [hu]))) fun _ => .failed hr
    · exact .failed hs
termination_by 2 * ts.length
decreasing_by all_goals (simp only [List.length_cons] at *; omega)

end

/-! ## Statements -/

theorem Carries.widen {α : Type} {f : α → α} {bound bound' larger larger' : Nat}
    {p : Parsed α bound} {q : Parsed α bound'} {h : bound ≤ larger} {h' : bound' ≤ larger'}
    (hp : σ.Carries f p q) : σ.Carries f (p.widen h) (q.widen h') := by
  cases hp with
  | done hr => exact .done hr
  | failed hr => exact .failed hr

theorem Carries.andThen {α β : Type} {f : α → α} {g : β → β} {bound bound' : Nat}
    {p : Parsed α bound} {q : Parsed α bound'}
    {next : α → (rest : List Token) → rest.length < bound → Parsed β bound}
    {next' : α → (rest : List Token) → rest.length < bound' → Parsed β bound'}
    (hp : σ.Carries f p q)
    (hn : ∀ a rest h h', σ.Shields rest →
      σ.Carries g (next a rest h) (next' (f a) (σ.tokens rest) h')) :
    σ.Carries g (p.andThen next) (q.andThen next') := by
  cases hp with
  | done hr => exact hn _ _ _ _ hr
  | failed hr => exact .failed hr

theorem carries_parseToken {kind : TokenKind} (hk : kind ≠ .line) (hs : σ.Shields ts) :
    σ.Carries (Token.relocate σ.place) (parseToken kind d ts)
      (parseToken kind d (σ.tokens ts)) := by
  cases ts with
  | nil =>
    rw [hs.tokens_eq_nil]
    exact .failed_nil hs
  | cons t ts => exact .ite Iff.rfl (fun ht => .done (hs.tail (ht ▸ hk))) fun _ => .failed hs

theorem carries_parseWord {word : String} (hs : σ.Shields ts) :
    σ.Carries (Token.relocate σ.place) (parseWord word d ts)
      (parseWord word d (σ.tokens ts)) := by
  cases ts with
  | nil =>
    rw [hs.tokens_eq_nil]
    exact .failed_nil hs
  | cons t ts => exact .ite Iff.rfl (fun ht => .done (hs.tail_of_isWord ht)) fun _ => .failed hs

theorem carries_parseIfThen (hs : σ.Shields ts) :
    σ.Carries id (parseIfThen d ts) (parseIfThen d (σ.tokens ts)) :=
  (carries_parseExpr hs).andThen fun _ _ _ _ hr =>
    (carries_parseWord hr).widen.andThen fun _ _ _ _ hr =>
      (carries_parseToken (by decide) hr).widen.andThen fun _ _ _ _ hr => .done hr

theorem startsWithEquals_tokens (hs : σ.Shields ts) :
    startsWithEquals (σ.tokens ts) = startsWithEquals ts := by
  cases ts with
  | nil => rw [hs.tokens_eq_nil]
  | cons t ts => rfl

/-- **A statement is parsed alike in all settings.** -/
theorem carries_parseStatement (hs : σ.Shields ts) :
    σ.Carries id (parseStatement d ts) (parseStatement d (σ.tokens ts)) := by
  cases ts with
  | nil =>
    rw [hs.tokens_eq_nil]
    exact .failed_nil hs
  | cons t ts =>
    have hc : (t.kind = .word ∧ startsWithEquals ts = true) ↔
        (t.kind = .word ∧ startsWithEquals (σ.tokens ts) = true) :=
      and_congr_right fun hk => by rw [startsWithEquals_tokens (hs.tail (by simp [hk]))]
    refine .ite hc (fun hk => ?_) fun _ => .ite Iff.rfl (fun ht => ?_) fun _ =>
      .ite Iff.rfl (fun ht => ?_) fun _ => .ite Iff.rfl (fun ht => ?_) fun _ => .failed hs
    · cases ts with
      | nil => simp [startsWithEquals] at hk
      | cons u ts =>
        have hu : u.kind = .equals := by simpa [startsWithEquals] using hk.2
        have hr := (hs.tail (by simp [hk.1])).tail (by simp [hu])
        exact (carries_parseExpr hr).widen.andThen fun _ _ _ _ hr => .done hr
    · exact (carries_parseExpr (hs.tail_of_isWord ht)).widen.andThen fun _ _ _ _ hr => .done hr
    · exact (carries_parseToken (by decide) (hs.tail_of_isWord ht)).widen.andThen
        fun _ _ _ _ hr => .done hr
    · exact (carries_parseIfThen (hs.tail_of_isWord ht)).widen

/-! ## Programs -/

/-- The tokens behind start on a new line, if there are any. -/
def Breaks (σ : Setting) (ts : List Token) : Prop :=
  σ.behind = [] ∨ ∀ t ∈ ts.getLast?, t.kind = .line

theorem Breaks.shields (h : σ.Breaks (t :: ts)) : σ.Shields (t :: ts) := by
  refine h.imp_right fun h => ?_
  have hlast := List.getLast?_eq_some_getLast (List.cons_ne_nil t ts)
  exact ⟨_, List.getLast_mem _, h _ hlast⟩

theorem Breaks.of_append {us : List Token} (h : σ.Breaks (us ++ ts)) : σ.Breaks ts := by
  refine h.imp_right fun h t ht => h t ?_
  simp [List.getLast?_append, Option.mem_def.1 ht]

theorem Breaks.tail (h : σ.Breaks (t :: ts)) : σ.Breaks ts := @of_append σ ts [t] h

/-- The second parse, in the setting, fails like the first or goes on from its
    result with the tokens that it leaves. -/
inductive GoesOn (σ : Setting) (d : Nat) {bound bound' : Nat} :
    Parsed Program bound → Parsed Program bound' → Prop
  | done {p rest h h'} : (∀ t ∈ rest.head?, t.kind = .eof) →
      GoesOn σ d (.done p rest h) (parseProgramFrom bound' d p (σ.tokens rest) h')
  | failed {c rest e} : σ.Shields rest →
      GoesOn σ d (.failed c rest e) (.failed (c.relocate σ.place) (σ.tokens rest) e)

/-- **A program is parsed alike in all settings.** -/
theorem goesOn_parseProgramFrom {bound bound' : Nat} {p : Program} {h h'} (hd : d ≤ maxNesting)
    (hs : σ.Breaks ts) : σ.GoesOn d (parseProgramFrom bound d p ts h)
      (parseProgramFrom bound' d p (σ.tokens ts) h') := by
  fun_induction parseProgramFrom bound d p ts h with
  | case1 p h => exact .done (by simp)
  | case2 p t ts h ht _ ih =>
    simp only [tokens_cons]
    rw [parseProgramFrom]
    simp only [Token.kind_relocate, ht]
    exact ih hs.tail
  | case3 p t ts h ht => exact .done (by simpa using ht)
  | case4 p t ts h ht labels _ =>
    rename_i ih
    simp only [tokens_cons]
    rw [parseProgramFrom]
    simp only [Token.kind_relocate, ht]
    exact ih hs.tail
  | case5 p t ts h c rest e hp hl he hb =>
    have hq := carries_parseStatement (d := d) hs.shields
    rw [hp] at hq
    simp only [tokens_cons] at hq ⊢
    rw [parseProgramFrom_statement (by simpa using hl) (by simpa using he) (by simpa using hb)]
    generalize parseStatement d _ = q at hq ⊢
    cases hq with
    | failed hr => exact .failed hr
  | case6 p t ts h s rest shorter hp statements hl he hb _ =>
    rename_i ih
    obtain ⟨us, heq, -⟩ := derives_of_parseStatement hd ⟨shorter, hp⟩
    have hq := carries_parseStatement (d := d) hs.shields
    rw [hp] at hq
    simp only [tokens_cons] at hq ⊢
    rw [parseProgramFrom_statement (by simpa using hl) (by simpa using he) (by simpa using hb)]
    generalize parseStatement d _ = q at hq ⊢
    cases hq with
    | done hr => exact ih (heq ▸ hs).of_append

theorem goesOn_parseProgram (hs : σ.Breaks ts) :
    σ.GoesOn 0 (parseProgram 0 ts) (parseProgram 0 (σ.tokens ts)) :=
  goesOn_parseProgramFrom (Nat.zero_le maxNesting) hs

end Setting

/-! ## Places matter to complaints only -/

theorem Setting.GoesOn.result_eq {σ : Setting} {d bound bound' : Nat} {p : Parsed Program bound}
    {q : Parsed Program bound'} (h : σ.GoesOn d p q) (hb : σ.behind = []) (last : Token) :
    q.result (last.relocate σ.place) = (p.result last).mapError (ParseError.relocate σ.place) := by
  have htokens : ∀ ts, σ.tokens ts = ts.map (Token.relocate σ.place) := by simp [tokens, hb]
  cases h with
  | @done p rest _ h' he =>
    have he' : ∀ t ∈ (σ.tokens rest).head?, t.kind = .eof := by
      simpa [htokens, List.head?_map] using he
    rw [parseProgramFrom_of_end he']
    rfl
  | @failed c rest e _ =>
    have hhead : (σ.tokens rest).headD (last.relocate σ.place) =
        (rest.headD last).relocate σ.place := by
      rw [htokens]
      cases rest <;> rfl
    rw [Parsed.result, hhead]
    rfl

section
variable (f : Place → Place) {ts : List Token}

theorem Token.endAfter_relocate (hne : ts ≠ []) :
    Token.endAfter (ts.map (Token.relocate f)) = (Token.endAfter ts).relocate f := by
  have hlast := List.getLast?_eq_some_getLast hne
  simp [Token.endAfter, Token.relocate, List.getLast?_map, hlast]

/-- **The program of tokens at other places** is the same, and so is the error
    but for its places. -/
theorem ofTokens_relocate (hne : ts ≠ []) : Program.ofTokens (ts.map (Token.relocate f)) =
    (Program.ofTokens ts).mapError (ParseError.relocate f) := by
  have hts : ts.map (Token.relocate f) = (⟨f, []⟩ : Setting).tokens ts :=
    (List.append_nil _).symm
  have hgo : (⟨f, []⟩ : Setting).GoesOn 0 (parseProgram 0 ts) _ :=
    Setting.goesOn_parseProgram (.inl rfl)
  rw [ofTokens_eq_result, ofTokens_eq_result, Token.endAfter_relocate f hne, hts]
  exact hgo.result_eq rfl (.endAfter ts)

end

/-- Tokens of the same kinds and texts have the same program. -/
theorem ofTokens_eq_ok_of_lexemes {ts us : List Token} {p : Program} (hne : ts ≠ [])
    (hts : ts.map Token.lexeme = us.map Token.lexeme) (h : Program.ofTokens ts = .ok p) :
    Program.ofTokens us = .ok p := by
  have hne' : us ≠ [] := by rintro rfl; simp_all
  -- at one and the same place the tokens are equal
  have hplace : ∀ vs : List Token, vs.map (Token.relocate fun _ => ⟨0, 0⟩) =
      (vs.map Token.lexeme).map fun l => ⟨l.kind, l.text, ⟨0, 0⟩⟩ := by
    intro vs
    rw [List.map_map]
    rfl
  have heq := ofTokens_relocate (fun _ => ⟨0, 0⟩) hne'
  rw [hplace, ← hts, ← hplace, ofTokens_relocate _ hne, h] at heq
  cases hus : Program.ofTokens us with
  | ok q =>
    rw [hus] at heq
    exact heq.symm
  | error e =>
    rw [hus] at heq
    cases heq

end GotoBasic
