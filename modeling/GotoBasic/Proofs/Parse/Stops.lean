/-
  Where the parser of expressions stops.

  * `Parsed.Fails p c rest`: the parse fails with the complaint `c` in front of
    the tokens `rest`; `Rejects` says so of the parser of a phrase;
  * `SameAhead`: tokens that agree as far as a parse looks ahead;
  * `Stops whole rejects tokens c rest`: the tokens are rejected in front of
    `rest`, the tokens passed are the beginning of a whole phrase, and they are
    rejected alike in front of all tokens that look like `rest`;
  * `stops_of_parseExpr`, `stops_of_parseAtomic`: this is how the parser fails.
-/
import GotoBasic.Proofs.Parse.Proper

namespace GotoBasic

/-! ## Failed parses -/

namespace Parsed

variable {α β : Type} {bound : Nat} {c : Complaint} {rest : List Token}

/-- The parse fails with the complaint `c` and leaves the tokens `rest`. -/
def Fails (p : Parsed α bound) (c : Complaint) (rest : List Token) : Prop :=
  ∃ d, p = .failed c rest d

@[simp] theorem fails_failed {c' : Complaint} {ts : List Token} {d : Nat} :
    (failed c' ts d : Parsed α bound).Fails c rest ↔ c' = c ∧ ts = rest := by
  constructor
  · rintro ⟨_, he⟩; cases he; exact ⟨rfl, rfl⟩
  · rintro ⟨rfl, rfl⟩; exact ⟨d, rfl⟩

@[simp] theorem not_fails_done {a : α} {ts : List Token} {h : ts.length < bound} :
    ¬ (done a ts h).Fails c rest := by
  rintro ⟨_, he⟩; cases he

@[simp] theorem fails_widen {larger : Nat} {h : bound ≤ larger} {p : Parsed α bound} :
    (p.widen h).Fails c rest ↔ p.Fails c rest := by
  cases p <;> simp [widen]

theorem fails_andThen {p : Parsed α bound}
    {next : α → (rest : List Token) → rest.length < bound → Parsed β bound} :
    (p.andThen next).Fails c rest ↔
      p.Fails c rest ∨ ∃ a ts h, p.Gives a ts ∧ (next a ts h).Fails c rest := by
  cases p with
  | done a ts h =>
    simp only [andThen, not_fails_done, false_or]
    constructor
    · intro hf; exact ⟨a, ts, h, ⟨h, rfl⟩, hf⟩
    · rintro ⟨_, _, _, ⟨_, he⟩, hf⟩; cases he; exact hf
  | failed => simp [andThen]

theorem fails_andThen_done {p : Parsed α bound} {f : α → β} :
    (p.andThen fun a rest h => done (f a) rest h).Fails c rest ↔ p.Fails c rest := by
  simp [fails_andThen]

end Parsed

/-! ## Tokens ahead -/

/-- The tokens agree as far as a parse looks ahead: on the first one, and
    behind a word also on the second. -/
def SameAhead (ts us : List Token) : Prop :=
  us.head? = ts.head? ∧ ∀ t ∈ ts.head?, t.kind = .word → us.tail.head? = ts.tail.head?

theorem EndsChain.congr {ts us : List Token} (h : EndsChain ts) (heq : us.head? = ts.head?) :
    EndsChain us := by
  rwa [EndsChain, heq]

/-- The parse of `tokens` stops in front of `rest` with the complaint `c`: the
    tokens passed can be completed to whole ones, and whatever looks like `rest`
    is rejected behind them in the same way. -/
def Stops (whole : List Token → Prop) (rejects : List Token → Complaint → List Token → Prop)
    (tokens : List Token) (c : Complaint) (rest : List Token) : Prop :=
  ∃ front, tokens = front ++ rest ∧ (∃ more, whole (front ++ more)) ∧
    ∀ rest', SameAhead rest rest' → rejects (front ++ rest') c rest'

section
variable {whole whole' : List Token → Prop}
  {rejects rejects' : List Token → Complaint → List Token → Prop} {tokens rest : List Token}
  {c : Complaint}

/-- The parse stops at the first token. -/
theorem Stops.here {more : List Token} (hw : whole more)
    (hr : ∀ {us}, SameAhead tokens us → rejects us c us) : Stops whole rejects tokens c tokens :=
  ⟨[], rfl, ⟨more, hw⟩, fun _ h => hr h⟩

/-- The parse stops in the same way inside something larger, whose parse has
    come so far behind the tokens `before` and has looked at the first token
    only. -/
theorem Stops.within (h : Stops whole rejects tokens c rest) (before : List Token)
    (hw : ∀ {ts}, whole ts → ∃ behind, whole' (before ++ (ts ++ behind)))
    (hr : ∀ {us rest'}, us.head? = tokens.head? → rejects us c rest' →
      rejects' (before ++ us) c rest') :
    Stops whole' rejects' (before ++ tokens) c rest := by
  obtain ⟨front, rfl, ⟨more, hm⟩, hs⟩ := h
  obtain ⟨behind, hb⟩ := hw hm
  refine ⟨before ++ front, by simp, ⟨more ++ behind, by simpa using hb⟩, fun rest' hsame => ?_⟩
  have hhead : (front ++ rest').head? = (front ++ rest).head? := by
    simp only [List.head?_append, hsame.1]
  simpa using hr hhead (hs rest' hsame)

theorem Stops.behind (h : Stops whole rejects tokens c rest) (before : List Token)
    (hw : ∀ {ts}, whole ts → whole' (before ++ ts))
    (hr : ∀ {us rest'}, us.head? = tokens.head? → rejects us c rest' →
      rejects' (before ++ us) c rest') :
    Stops whole' rejects' (before ++ tokens) c rest :=
  h.within before (fun hts => ⟨[], by simpa using hw hts⟩) hr

end

/-! ## Phrases -/

/-- The tokens are a whole phrase, `d` parentheses being open. -/
def IsPhrase (ph : Phrase) (d : Nat) (ts : List Token) : Prop := ∃ e, Begins ph d ts e []

/-- The parser fails at a phrase in front of the tokens. -/
def Rejects (ph : Phrase) (d : Nat) (tokens : List Token) (c : Complaint) (rest : List Token) :
    Prop :=
  match ph with
  | .atomic => (parseAtomic d tokens).Fails c rest
  | .expr => (parseExpr d tokens).Fails c rest
  | .after left => ∀ bound h, (parseChain bound d left tokens h).Fails c rest

/-- The parse of a phrase stops. -/
abbrev StopsIn (ph : Phrase) (d : Nat) : List Token → Complaint → List Token → Prop :=
  Stops (IsPhrase ph d) (Rejects ph d)

/-- The kinds of tokens that an operand starts with. -/
def TokenKind.startsOperand : TokenKind → Bool
  | word | number | string | leftParen => true
  | _ => false

section
variable {d : Nat} {t : Token} {ts tokens rest : List Token} {e left right : Expr}
  {c : Complaint}

/-- A word is an operand. -/
theorem isPhrase_word (hd : d ≤ maxNesting) : IsPhrase .atomic d [.of .word "x"] :=
  ⟨_, .singleton hd (.word rfl) (by simp) (by simp)⟩

theorem Derives.isPhrase (h : Derives .expr ts e) (hn : NestedWithin (maxNesting - d) ts) :
    IsPhrase .expr d ts :=
  ⟨e, ts, by simp, h, hn, by simp [Phrase.EndsBefore, EndsChain]⟩

/-- An expression is closed to an operand. -/
theorem IsPhrase.parens (hd : d < maxNesting) (ht : t.kind = .leftParen)
    (h : IsPhrase .expr (d + 1) ts) :
    IsPhrase .atomic d (t :: (ts ++ [.of .rightParen ")"])) := by
  obtain ⟨e, us, rfl, hus, hn, -⟩ := h
  have hclosed : Begins .expr (d + 1) (us ++ [.of .rightParen ")"]) e [.of .rightParen ")"] :=
    ⟨us, rfl, hus, hn, endsChain_of_rightParen rfl⟩
  rw [List.append_nil]
  exact ⟨e, hclosed.parens hd ht rfl⟩

theorem Rejects.noExpression (h : ∀ t ∈ tokens.head?, t.kind.startsOperand = false) :
    Rejects .atomic d tokens .noExpression tokens := by
  cases tokens with
  | nil => simp [Rejects, parseAtomic]
  | cons t tokens =>
    have ht : t.kind.startsOperand = false := h t rfl
    rw [Rejects, parseAtomic]
    split <;> simp_all [TokenKind.startsOperand]

theorem Rejects.tooDeep (hd : maxNesting ≤ d) (ht : t.kind = .leftParen) :
    Rejects .atomic d (t :: tokens) .tooDeep (t :: tokens) := by
  simp [Rejects, parseAtomic, ht, hd]

theorem Rejects.inner (hd : d < maxNesting) (ht : t.kind = .leftParen)
    (h : Rejects .expr (d + 1) tokens c rest) : Rejects .atomic d (t :: tokens) c rest := by
  obtain ⟨_, h⟩ := h
  have hd' : ¬ d ≥ maxNesting := by omega
  simp [Rejects, parseAtomic, ht, if_neg hd', h]

theorem Rejects.unmatched (hd : d < maxNesting) (ht : t.kind = .leftParen)
    (h : Parses .expr (d + 1) tokens e rest) (hr : ∀ u ∈ rest.head?, u.kind ≠ .rightParen) :
    Rejects .atomic d (t :: tokens) (.unmatched t.place) rest := by
  obtain ⟨_, h⟩ := h
  have hd' : ¬ d ≥ maxNesting := by omega
  cases rest with
  | nil => simp [Rejects, parseAtomic, ht, if_neg hd', h]
  | cons u rest => simp [Rejects, parseAtomic, ht, if_neg hd', h, hr u rfl]

theorem Rejects.first (h : Rejects .atomic d tokens c rest) : Rejects .expr d tokens c rest := by
  obtain ⟨_, h⟩ := h
  simp [Rejects, parseExpr, h]

theorem Rejects.expr (h : Parses .atomic d tokens left ts)
    (hc : Rejects (.after left) d ts c rest) : Rejects .expr d tokens c rest := by
  obtain ⟨shorter, h⟩ := h
  simpa [Rejects, parseExpr, h] using hc tokens.length shorter

theorem Rejects.operand (ht : t.joins = true) (h : Rejects .atomic d tokens c rest) :
    Rejects (.after left) d (t :: tokens) c rest := by
  intro bound shorter
  obtain ⟨_, h⟩ := h
  simp [parseChain, ht, h]

theorem Rejects.link (ht : t.joins = true) (h : Parses .atomic d tokens right ts)
    (hc : Rejects (.after (.binary left (.text t.text) right)) d ts c rest) :
    Rejects (.after left) d (t :: tokens) c rest := by
  intro bound shorter
  obtain ⟨shorter', h⟩ := h
  simpa [parseChain, ht, h] using
    hc bound (Nat.lt_trans shorter' (Token.length_lt_of_cons shorter))

theorem StopsIn.noExpression (hd : d ≤ maxNesting)
    (h : ∀ t ∈ tokens.head?, t.kind.startsOperand = false) :
    StopsIn .atomic d tokens .noExpression tokens :=
  .here (isPhrase_word hd) fun hsame => .noExpression (by rwa [hsame.1])

theorem StopsIn.tooDeep (hd : d ≤ maxNesting) (hmax : maxNesting ≤ d) (ht : t.kind = .leftParen) :
    StopsIn .atomic d (t :: tokens) .tooDeep (t :: tokens) := by
  refine .here (isPhrase_word hd) fun {us} hsame => ?_
  obtain ⟨us, rfl⟩ := List.head?_eq_some_iff.1 hsame.1
  exact .tooDeep hmax ht

theorem StopsIn.inner (hd : d < maxNesting) (ht : t.kind = .leftParen)
    (h : StopsIn .expr (d + 1) tokens c rest) : StopsIn .atomic d (t :: tokens) c rest :=
  h.within [t] (fun he => ⟨_, he.parens hd ht⟩) fun _ hr => hr.inner hd ht

theorem StopsIn.unmatched (hd : d < maxNesting) (ht : t.kind = .leftParen)
    (h : Begins .expr (d + 1) tokens e rest) (hr : ∀ u ∈ rest.head?, u.kind ≠ .rightParen) :
    StopsIn .atomic d (t :: tokens) (.unmatched t.place) rest := by
  obtain ⟨ts, rfl, hts, hn, hend⟩ := h
  refine ⟨t :: ts, rfl, ⟨_, (hts.isPhrase hn).parens hd ht⟩, fun rest' hsame => ?_⟩
  have hp : Parses .expr (d + 1) (ts ++ rest') e rest' :=
    hts.parses hn (EndsChain.congr hend hsame.1)
  exact .unmatched hd ht hp (by rwa [hsame.1])

theorem StopsIn.first (hd : d ≤ maxNesting) (h : StopsIn .atomic d tokens c rest) :
    StopsIn .expr d tokens c rest := by
  refine h.behind [] (fun ⟨e, he⟩ => ⟨e, ?_⟩) fun _ hr => hr.first
  exact he.expr (.nothing hd (by simp [EndsChain]))

theorem StopsIn.expr (h : Begins .atomic d tokens left ts)
    (hc : StopsIn (.after left) d ts c rest) : StopsIn .expr d tokens c rest := by
  obtain ⟨us, rfl, hus, hn, -⟩ := h
  refine hc.behind us (fun ⟨e, he⟩ => ⟨e, ?_⟩) fun _ hr => .expr (hus.parses hn trivial) hr
  exact Begins.expr ⟨us, rfl, hus, hn, trivial⟩ he

theorem StopsIn.operand (hd : d ≤ maxNesting) (ht : t.joins = true)
    (h : StopsIn .atomic d tokens c rest) : StopsIn (.after left) d (t :: tokens) c rest := by
  refine h.behind [t] (fun ⟨e, he⟩ => ⟨.binary left (.text t.text) e, ?_⟩)
    fun _ hr => hr.operand ht
  exact Begins.link ht he (.nothing hd (by simp [EndsChain]))

theorem StopsIn.link (ht : t.joins = true) (h : Begins .atomic d tokens right ts)
    (hc : StopsIn (.after (.binary left (.text t.text) right)) d ts c rest) :
    StopsIn (.after left) d (t :: tokens) c rest := by
  obtain ⟨us, rfl, hus, hn, -⟩ := h
  refine hc.behind (t :: us) (fun ⟨e, he⟩ => ⟨e, ?_⟩)
    fun _ hr => .link ht (hus.parses hn trivial) hr
  exact .link ht ⟨us, rfl, hus, hn, trivial⟩ he

end

-- The three theorems follow the recursion of the parser.
mutual

theorem stops_of_parseExpr {d : Nat} {tokens rest : List Token} {c : Complaint}
    (hd : d ≤ maxNesting) (hc : c.Legible) (hp : (parseExpr d tokens).Fails c rest) :
    StopsIn .expr d tokens c rest := by
  rw [parseExpr] at hp
  split at hp
  · rename_i ha
    obtain ⟨rfl, rfl⟩ := Parsed.fails_failed.1 hp
    exact (stops_of_parseAtomic hd hc ⟨_, ha⟩).first hd
  · rename_i ha
    exact .expr (begins_of_parseAtomic hd ⟨_, ha⟩) (stops_of_parseChain hd hc hp)
termination_by 2 * tokens.length + 1
decreasing_by all_goals omega

theorem stops_of_parseChain {bound d : Nat} {left : Expr} {tokens rest : List Token}
    {c : Complaint} {h} (hd : d ≤ maxNesting) (hc : c.Legible)
    (hp : (parseChain bound d left tokens h).Fails c rest) :
    StopsIn (.after left) d tokens c rest := by
  match tokens, h, hp with
  | [], _, hp => simp [parseChain] at hp
  | t :: tokens, h, hp =>
    rw [parseChain] at hp
    split at hp
    · rename_i ht
      split at hp
      · rename_i ha
        obtain ⟨rfl, rfl⟩ := Parsed.fails_failed.1 hp
        exact (stops_of_parseAtomic hd hc ⟨_, ha⟩).operand hd ht
      · rename_i ha
        exact .link ht (begins_of_parseAtomic hd ⟨_, ha⟩) (stops_of_parseChain hd hc hp)
    · simp at hp
termination_by 2 * tokens.length + 1
decreasing_by all_goals (simp only [List.length_cons] at *; omega)

theorem stops_of_parseAtomic {d : Nat} {tokens rest : List Token} {c : Complaint}
    (hd : d ≤ maxNesting) (hc : c.Legible) (hp : (parseAtomic d tokens).Fails c rest) :
    StopsIn .atomic d tokens c rest := by
  match tokens, hp with
  | [], hp =>
    rw [parseAtomic] at hp
    obtain ⟨rfl, rfl⟩ := Parsed.fails_failed.1 hp
    exact .noExpression hd (by simp)
  | t :: tokens, hp =>
    rw [parseAtomic] at hp
    split at hp
    · simp at hp
    · cases hx : Number.ofGrouped? t.text with
      | none =>
        simp only [hx, Option.elim] at hp
        obtain ⟨rfl, rfl⟩ := Parsed.fails_failed.1 hp
        exact absurd hc id
      | some x => simp [hx] at hp
    · simp at hp
    · rename_i hk
      split at hp
      · rename_i hmax
        obtain ⟨rfl, rfl⟩ := Parsed.fails_failed.1 hp
        exact .tooDeep hd hmax hk
      · rename_i hlt
        have hd' : d < maxNesting := by omega
        split at hp
        · rename_i hi
          obtain ⟨rfl, rfl⟩ := Parsed.fails_failed.1 hp
          exact (stops_of_parseExpr (by omega) hc ⟨_, hi⟩).inner hd' hk
        · rename_i hi
          obtain ⟨rfl, rfl⟩ := Parsed.fails_failed.1 hp
          exact .unmatched hd' hk (begins_of_parseExpr (by omega) ⟨_, hi⟩) (by simp)
        · rename_i u after shorter hi
          split at hp
          · simp at hp
          · rename_i hu
            obtain ⟨rfl, rfl⟩ := Parsed.fails_failed.1 hp
            exact .unmatched hd' hk (begins_of_parseExpr (by omega) ⟨_, hi⟩) (by simpa using hu)
    · rename_i hw hn hs hl
      obtain ⟨rfl, rfl⟩ := Parsed.fails_failed.1 hp
      refine .noExpression hd fun u hu => ?_
      obtain rfl : t = u := by simpa using hu
      unfold TokenKind.startsOperand
      split <;> first | rfl | contradiction
termination_by 2 * tokens.length
decreasing_by all_goals (simp only [List.length_cons] at *; omega)

end

end GotoBasic
