/-
  The parser of expressions and the grammar.

  * `Begins ph d tokens e rest`: the tokens begin with a phrase that has the
    tree `e`, `d` parentheses being open already, and `rest` follows it;
  * `begins_of_parseExpr`, `begins_of_parseAtomic`: what the parser finds is
    in the grammar;
  * `Derives.parses`: what is in the grammar the parser finds, up to an
    operator that would go on with it.
-/
import GotoBasic.Proofs.Grammar.Basic
import GotoBasic.Proofs.Parse.Ahead

namespace GotoBasic

/-! ## Results of parsing -/

namespace Parsed

variable {α β : Type} {bound : Nat}

/-- The parse succeeds with the result `a` and leaves the tokens `rest`. -/
def Gives (p : Parsed α bound) (a : α) (rest : List Token) : Prop := ∃ h, p = .done a rest h

theorem Gives.length_lt {p : Parsed α bound} {a : α} {rest : List Token} (h : p.Gives a rest) :
    rest.length < bound :=
  h.1

@[simp] theorem gives_done {a b : α} {ts rest : List Token} {h : ts.length < bound} :
    (done a ts h).Gives b rest ↔ a = b ∧ ts = rest := by
  constructor
  · rintro ⟨_, he⟩; cases he; exact ⟨rfl, rfl⟩
  · rintro ⟨rfl, rfl⟩; exact ⟨h, rfl⟩

@[simp] theorem not_gives_failed {c : Complaint} {ts rest : List Token} {d : Nat} {a : α} :
    ¬ (failed c ts d : Parsed α bound).Gives a rest := by
  rintro ⟨_, he⟩; cases he

@[simp] theorem gives_widen {larger : Nat} {h : bound ≤ larger} {p : Parsed α bound} {a : α}
    {rest : List Token} : (p.widen h).Gives a rest ↔ p.Gives a rest := by
  cases p <;> simp [widen]

theorem gives_andThen {p : Parsed α bound}
    {next : α → (rest : List Token) → rest.length < bound → Parsed β bound} {b : β}
    {rest : List Token} :
    (p.andThen next).Gives b rest ↔ ∃ a ts h, p.Gives a ts ∧ (next a ts h).Gives b rest := by
  cases p with
  | done a ts h =>
    constructor
    · intro hb; exact ⟨a, ts, h, ⟨h, rfl⟩, hb⟩
    · rintro ⟨_, _, _, ⟨_, he⟩, hb⟩; cases he; exact hb
  | failed => simp [andThen]

theorem gives_andThen_done {p : Parsed α bound} {f : α → β} {b : β} {rest : List Token} :
    (p.andThen fun a rest h => done (f a) rest h).Gives b rest ↔
      ∃ a, p.Gives a rest ∧ f a = b := by
  rw [gives_andThen]
  constructor
  · rintro ⟨a, ts, _, hp, hb⟩
    obtain ⟨rfl, rfl⟩ := gives_done.1 hb
    exact ⟨a, hp, rfl⟩
  · rintro ⟨a, ⟨h, hp⟩, rfl⟩
    exact ⟨a, rest, h, ⟨h, hp⟩, h, rfl⟩

end Parsed

/-! ## Phrases in front of tokens -/

/-- A chain of operators cannot go on with these tokens. -/
def EndsChain (rest : List Token) : Prop := ∀ t ∈ rest.head?, t.joins = false

theorem endsChain_cons_iff {t : Token} {rest : List Token} :
    EndsChain (t :: rest) ↔ t.joins = false := by
  simp [EndsChain]

theorem endsChain_of_rightParen {t : Token} {rest : List Token} (h : t.kind = .rightParen) :
    EndsChain (t :: rest) :=
  endsChain_cons_iff.2 (by simp [Token.joins, h])

/-- A phrase may end in front of these tokens. -/
def Phrase.EndsBefore : Phrase → List Token → Prop
  | atomic, _ => True
  | expr, rest | after _, rest => EndsChain rest

/-- The tokens begin with a phrase, `d` parentheses being open, and go on with
    `rest`. -/
def Begins (ph : Phrase) (d : Nat) (tokens : List Token) (e : Expr) (rest : List Token) : Prop :=
  ∃ ts, tokens = ts ++ rest ∧ Derives ph ts e ∧ NestedWithin (maxNesting - d) ts ∧
    ph.EndsBefore rest

theorem openParens_cons_joins {t : Token} {ts : List Token} (h : t.joins = true) :
    openParens (t :: ts) = openParens ts := by
  rcases t.kind_of_joins h with hk | hk <;>
    exact openParens_cons_other (by simp [hk]) (by simp [hk])

theorem nestedWithin_cons_joins {n : Int} {t : Token} {ts : List Token} (h : t.joins = true) :
    NestedWithin n (t :: ts) ↔ NestedWithin n ts := by
  rcases t.kind_of_joins h with hk | hk <;>
    exact nestedWithin_cons_other (by simp [hk]) (by simp [hk])

/-- Every parenthesis that is opened in a phrase is closed in it. -/
theorem Derives.openParens_eq {ph : Phrase} {ts : List Token} {e : Expr} (h : Derives ph ts e) :
    openParens ts = 0 := by
  induction h with
  | word hk | number hk _ | string hk => exact openParens_cons_other (by simp [hk]) (by simp [hk])
  | parens ht _ hu ih =>
    rw [openParens_cons, openParens_append, openParens_leftParen ht, openParens_rightParen hu, ih]
    rfl
  | expr _ _ ih₁ ih₂ => rw [openParens_append, ih₁, ih₂]; rfl
  | nothing => rfl
  | link ht _ _ ih₁ ih₂ =>
    rw [openParens_cons_joins ht, openParens_append, ih₁, ih₂]; rfl

/-! ## What is parsed is in the grammar -/

section
variable {d : Nat} {t u : Token} {ts tokens rest : List Token} {e left right : Expr}

theorem Begins.singleton (hd : d ≤ maxNesting) (h : Derives .atomic [t] e)
    (hl : t.kind ≠ .leftParen) (hr : t.kind ≠ .rightParen) :
    Begins .atomic d (t :: rest) e rest :=
  ⟨[t], rfl, h, (nestedWithin_cons_other hl hr).2 (nestedWithin_nil.2 (by omega)), trivial⟩

theorem Begins.parens (hd : d < maxNesting) (ht : t.kind = .leftParen)
    (h : Begins .expr (d + 1) tokens e (u :: rest)) (hu : u.kind = .rightParen) :
    Begins .atomic d (t :: tokens) e rest := by
  obtain ⟨ts, rfl, hts, hn, -⟩ := h
  refine ⟨t :: (ts ++ [u]), by simp, .parens ht hts hu, ?_, trivial⟩
  have h1 : (maxNesting : Int) - (d + 1 : Nat) = maxNesting - d - 1 := by omega
  rw [nestedWithin_cons, nestedWithin_append, nestedWithin_cons, nestedWithin_nil,
    openParens_leftParen ht, openParens_rightParen hu, hts.openParens_eq]
  refine ⟨by omega, h1 ▸ hn, by omega, by omega⟩

theorem Begins.expr (h : Begins .atomic d tokens left ts) (hc : Begins (.after left) d ts e rest) :
    Begins .expr d tokens e rest := by
  obtain ⟨us, rfl, hus, hn, -⟩ := h
  obtain ⟨vs, rfl, hvs, hn', he⟩ := hc
  refine ⟨us ++ vs, by simp, .expr hus hvs, ?_, he⟩
  rw [nestedWithin_append, hus.openParens_eq, Int.sub_zero]
  exact ⟨hn, hn'⟩

theorem Begins.nothing (hd : d ≤ maxNesting) (h : EndsChain rest) :
    Begins (.after left) d rest left rest :=
  ⟨[], rfl, .nothing, nestedWithin_nil.2 (by omega), h⟩

theorem Begins.link (ht : t.joins = true) (h : Begins .atomic d tokens right ts)
    (hc : Begins (.after (.binary left (.text t.text) right)) d ts e rest) :
    Begins (.after left) d (t :: tokens) e rest := by
  obtain ⟨us, rfl, hus, hn, -⟩ := h
  obtain ⟨vs, rfl, hvs, hn', he⟩ := hc
  refine ⟨t :: (us ++ vs), by simp, .link ht hus hvs, ?_, he⟩
  rw [nestedWithin_cons_joins ht, nestedWithin_append, hus.openParens_eq, Int.sub_zero]
  exact ⟨hn, hn'⟩

end

-- The three theorems follow the recursion of the parser.
mutual

theorem begins_of_parseExpr {d : Nat} {tokens rest : List Token} {e : Expr}
    (hd : d ≤ maxNesting) (hp : (parseExpr d tokens).Gives e rest) :
    Begins .expr d tokens e rest := by
  rw [parseExpr] at hp
  split at hp
  · simp at hp
  · rename_i left mid shorter ha
    exact (begins_of_parseAtomic hd ⟨_, ha⟩).expr (begins_of_parseChain hd hp)
termination_by 2 * tokens.length + 1
decreasing_by all_goals omega

theorem begins_of_parseChain {bound d : Nat} {left e : Expr} {tokens rest : List Token} {h}
    (hd : d ≤ maxNesting) (hp : (parseChain bound d left tokens h).Gives e rest) :
    Begins (.after left) d tokens e rest := by
  match tokens, h, hp with
  | [], _, hp =>
    rw [parseChain] at hp
    obtain ⟨rfl, rfl⟩ := Parsed.gives_done.1 hp
    exact .nothing hd (by simp [EndsChain])
  | t :: tokens, h, hp =>
    rw [parseChain] at hp
    split at hp
    · rename_i ht
      split at hp
      · simp at hp
      · rename_i right mid shorter ha
        exact .link ht (begins_of_parseAtomic hd ⟨_, ha⟩) (begins_of_parseChain hd hp)
    · rename_i ht
      obtain ⟨rfl, rfl⟩ := Parsed.gives_done.1 hp
      exact .nothing hd (by simpa [EndsChain] using ht)
termination_by 2 * tokens.length + 1
decreasing_by all_goals (simp only [List.length_cons] at *; omega)

theorem begins_of_parseAtomic {d : Nat} {tokens rest : List Token} {e : Expr}
    (hd : d ≤ maxNesting) (hp : (parseAtomic d tokens).Gives e rest) :
    Begins .atomic d tokens e rest := by
  match tokens, hp with
  | [], hp => simp [parseAtomic] at hp
  | t :: tokens, hp =>
    rw [parseAtomic] at hp
    split at hp
    · rename_i hk
      obtain ⟨rfl, rfl⟩ := Parsed.gives_done.1 hp
      exact .singleton hd (.word hk) (by simp [hk]) (by simp [hk])
    · rename_i hk
      cases hx : Number.ofGrouped? t.text with
      | none => simp [hx] at hp
      | some x =>
        simp only [hx, Option.elim] at hp
        obtain ⟨rfl, rfl⟩ := Parsed.gives_done.1 hp
        exact .singleton hd (.number hk hx) (by simp [hk]) (by simp [hk])
    · rename_i hk
      obtain ⟨rfl, rfl⟩ := Parsed.gives_done.1 hp
      exact .singleton hd (.string hk) (by simp [hk]) (by simp [hk])
    · rename_i hk
      split at hp
      · simp at hp
      · rename_i hlt
        split at hp
        · simp at hp
        · simp at hp
        · rename_i inner u after shorter hi
          split at hp
          · rename_i hu
            obtain ⟨rfl, rfl⟩ := Parsed.gives_done.1 hp
            exact .parens (by omega) hk (begins_of_parseExpr (by omega) ⟨_, hi⟩) hu
          · simp at hp
    · simp at hp
termination_by 2 * tokens.length
decreasing_by all_goals (simp only [List.length_cons] at *; omega)

end

/-! ## What is in the grammar is parsed -/

/-- The parser finds a phrase in front of the tokens. -/
def Parses (ph : Phrase) (d : Nat) (tokens : List Token) (e : Expr) (rest : List Token) : Prop :=
  match ph with
  | .atomic => (parseAtomic d tokens).Gives e rest
  | .expr => (parseExpr d tokens).Gives e rest
  | .after left => ∀ bound h, (parseChain bound d left tokens h).Gives e rest

section
variable {d : Nat} {t u : Token} {ts tokens rest : List Token} {e left right : Expr}

theorem Parses.parens (hd : d < maxNesting) (ht : t.kind = .leftParen)
    (h : Parses .expr (d + 1) tokens e (u :: rest)) (hu : u.kind = .rightParen) :
    Parses .atomic d (t :: tokens) e rest := by
  obtain ⟨_, h⟩ := h
  have hd' : ¬ d ≥ maxNesting := by omega
  simp [Parses, parseAtomic, ht, if_neg hd', h, hu]

theorem Parses.expr (h : Parses .atomic d tokens left ts) (hc : Parses (.after left) d ts e rest) :
    Parses .expr d tokens e rest := by
  obtain ⟨shorter, h⟩ := h
  simpa [Parses, parseExpr, h] using hc tokens.length shorter

theorem Parses.nothing (h : EndsChain rest) : Parses (.after left) d rest left rest := by
  intro bound shorter
  cases rest with
  | nil => simp [parseChain]
  | cons t rest => simp [parseChain, endsChain_cons_iff.1 h]

theorem Parses.link (ht : t.joins = true) (h : Parses .atomic d tokens right ts)
    (hc : Parses (.after (.binary left (.text t.text) right)) d ts e rest) :
    Parses (.after left) d (t :: tokens) e rest := by
  intro bound shorter
  obtain ⟨shorter', h⟩ := h
  simpa [parseChain, ht, h] using
    hc bound (Nat.lt_trans shorter' (Token.length_lt_of_cons shorter))

end

/-- **A phrase of the grammar is parsed**, if it does not open too many
    parentheses and no operator goes on with it. -/
theorem Derives.parses {ph : Phrase} {ts : List Token} {e : Expr} (h : Derives ph ts e) :
    ∀ {d : Nat} {rest : List Token}, NestedWithin (maxNesting - d) ts → ph.EndsBefore rest →
      Parses ph d (ts ++ rest) e rest := by
  induction h with
  | word hk => intro d rest _ _; simp [Parses, parseAtomic, hk]
  | number hk hx => intro d rest _ _; simp [Parses, parseAtomic, hk, hx]
  | string hk => intro d rest _ _; simp [Parses, parseAtomic, hk]
  | @parens t u ts e ht _ hu ih =>
    intro d rest hn _
    rw [nestedWithin_cons, nestedWithin_append, openParens_leftParen ht, Int.sub_sub] at hn
    have hd := hn.2.1.nonneg
    have hp := @ih (d + 1) (u :: rest) hn.2.1 (endsChain_of_rightParen hu)
    simpa using Parses.parens (by omega) ht hp hu
  | @expr ts us first e hts _ ih₁ ih₂ =>
    intro d rest hn he
    rw [nestedWithin_append, hts.openParens_eq, Int.sub_zero] at hn
    have hp := @ih₁ d (us ++ rest) hn.1 trivial
    simpa using hp.expr (ih₂ hn.2 he)
  | nothing => intro d rest _ he; exact .nothing he
  | @link t ts us left right e ht hts _ ih₁ ih₂ =>
    intro d rest hn he
    rw [nestedWithin_cons_joins ht, nestedWithin_append, hts.openParens_eq, Int.sub_zero] at hn
    have hp := @ih₁ d (us ++ rest) hn.1 trivial
    simpa using Parses.link ht hp (ih₂ hn.2 he)

end GotoBasic
