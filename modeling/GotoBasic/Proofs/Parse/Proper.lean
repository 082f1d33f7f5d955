/-
  Programs that are parsed from well spelled tokens.

  * `Program.Proper`: a program without stray items, whose signs are those of
    operators and whose labels mark places in it;
  * `proper_of_parse`: a program that was parsed from a text is proper;
  * `Parsed.Legible`: a parse does not fail at a number that cannot be read;
    `name_of_parse`: parsing a text fails with a complaint about its grammar
    only.
-/
import GotoBasic.Failure
import GotoBasic.Proofs.Grammar.Program

namespace GotoBasic

/-- A number or a text. -/
def Value.Proper : Value → Prop
  | number _ | text _ => True
  | stray _ => False

/-- An expression of literals, variables and operators. -/
def Expr.Proper : Expr → Prop
  | literal v => v.Proper
  | var _ => True
  | binary left sign right =>
    left.Proper ∧ (Operator.ofSign? sign.toText).isSome = true ∧ right.Proper
  | stray _ => False

/-- A statement with a proper expression. -/
def Statement.Proper : Statement → Prop
  | assign _ e | print e | ifThen e _ => e.Proper
  | goto _ => True
  | stray _ => False

/-- A program of proper statements, whose labels mark statements or the
    end. -/
structure Program.Proper (p : Program) : Prop where
  statements : ∀ s ∈ p.statements, s.Proper
  labels : ∀ l ∈ p.labels, 0 ≤ l.2 ∧ l.2 ≤ p.statements.size

/-! ## Derived programs are proper -/

theorem isSome_ofSign? {t : Token} (ht : t.joins = true) (hs : t.Spelled) :
    (Operator.ofSign? t.text).isSome = true := by
  rcases t.kind_of_joins ht with hk | hk
  · have hsigns : ∀ s ∈ ["+", "-", "*", "/", "<", ">"], (Operator.ofSign? s).isSome = true := by
      decide
    exact hsigns t.text (by simpa [Token.Spelled, hk] using hs)
  · simp only [Token.Spelled, hk] at hs
    rw [hs]
    decide

/-- A property of literals and names that operations keep holds of all that
    good tokens derive. -/
theorem Derives.holds {good : Token → Prop} {P : Expr → Prop}
    (hword : ∀ {t}, good t → t.kind = .word → P (.var (.text t.text)))
    (hnumber : ∀ {t x}, good t → t.kind = .number → Number.ofGrouped? t.text = some x →
      P (.literal (.number x)))
    (hstring : ∀ {t}, good t → t.kind = .string → P (.literal (.text t.text)))
    (hlink : ∀ {t left right}, good t → t.joins = true → P left → P right →
      P (.binary left (.text t.text) right))
    {ph : Phrase} {ts : List Token} {e : Expr} (h : Derives ph ts e) :
    (∀ t ∈ ts, good t) → (∀ left, ph = .after left → P left) → P e := by
  induction h with
  | word hk => intro hg _; exact hword (hg _ (by simp)) hk
  | number hk hx => intro hg _; exact hnumber (hg _ (by simp)) hk hx
  | string hk => intro hg _; exact hstring (hg _ (by simp)) hk
  | parens _ _ _ ih =>
    intro hg _
    exact ih (fun t ht => hg t (by simp [ht])) (by simp)
  | expr _ _ ih₁ ih₂ =>
    intro hg _
    have hfirst := ih₁ (fun t ht => hg t (by simp [ht])) (by simp)
    exact ih₂ (fun t ht => hg t (by simp [ht])) (by rintro _ ⟨⟩; exact hfirst)
  | nothing => intro _ hl; exact hl _ rfl
  | link ht _ _ ih₁ ih₂ =>
    intro hg hl
    have hright := ih₁ (fun t ht => hg t (by simp [ht])) (by simp)
    have hall := hlink (hg _ (by simp)) ht (hl _ rfl) hright
    exact ih₂ (fun t ht => hg t (by simp [ht])) (by rintro _ ⟨⟩; exact hall)

theorem Derives.proper_expr {ts : List Token} {e : Expr} (h : Derives .expr ts e)
    (hs : ∀ t ∈ ts, t.Spelled) : e.Proper := by
  refine h.holds (fun _ _ => trivial) (fun _ _ _ => trivial) (fun _ _ => trivial) ?_ hs (by simp)
  intro t left right ht hj hl hr
  exact ⟨hl, isSome_ofSign? hj ht, hr⟩

theorem DerivesStatement.proper {ts : List Token} {s : Statement} (h : DerivesStatement ts s)
    (hs : ∀ t ∈ ts, t.Spelled) : s.Proper := by
  cases h with
  | assign _ _ hts | print _ hts | ifThen _ hts _ _ =>
    exact hts.proper_expr fun t ht => hs t (by simp [ht])
  | goto => trivial

/-- The statements of a program are derived by some of its tokens. -/
theorem DerivesProgram.exists_derivesStatement {ts : List Token} {items : List Item}
    (h : DerivesProgram ts items) {s : Statement} (hs : .statement s ∈ items) :
    ∃ us, us ⊆ ts ∧ DerivesStatement us s := by
  induction h with
  | lines => simp at hs
  | @label ls t ts items _ _ _ ih =>
    obtain ⟨us, hus, hst⟩ := ih (by simpa using hs)
    exact ⟨us, fun u hu => by simp [hus hu], hst⟩
  | @statement ls ts us s' items _ hst _ ih =>
    simp only [List.mem_cons, Item.statement.injEq] at hs
    rcases hs with rfl | hs
    · exact ⟨ts, fun t ht => by simp [ht], hst⟩
    · obtain ⟨vs, hvs, hst'⟩ := ih hs
      exact ⟨vs, fun v hv => by simp [hvs hv], hst'⟩

theorem DerivesProgram.proper {ts : List Token} {items : List Item} (h : DerivesProgram ts items)
    (hs : ∀ t ∈ ts, t.Spelled) : ∀ s, .statement s ∈ items → s.Proper := by
  intro s hm
  obtain ⟨us, hus, hst⟩ := h.exists_derivesStatement hm
  exact hst.proper fun t ht => hs t (hus ht)

theorem Bindings.mem_put {ν α : Type} [BEq ν] {bs : Bindings ν α} {name : ν} {a : α}
    {b : ν × α} (h : b ∈ bs.put name a) : b ∈ bs ∨ b.2 = a := by
  induction bs with
  | nil => simp [put] at h; simp [h]
  | cons c bs ih =>
    rw [put] at h
    split at h
    · rcases List.mem_cons.1 h with rfl | h
      · exact .inr rfl
      · exact .inl (by simp [h])
    · rcases List.mem_cons.1 h with rfl | h
      · exact .inl (by simp)
      · exact (ih h).imp (by simp_all) id

/-- An item keeps a program proper. -/
theorem Program.Proper.add {p : Program} (h : p.Proper) {item : Item}
    (hi : ∀ s, item = .statement s → s.Proper) : (p.add item).Proper := by
  cases item with
  | label name =>
    refine ⟨h.statements, fun l hl => ?_⟩
    rcases Bindings.mem_put hl with hl | hl
    · exact h.labels l hl
    · rw [hl]
      exact ⟨by omega, Int.le_refl _⟩
  | statement s =>
    refine ⟨fun s' hs' => ?_, fun l hl => ?_⟩
    · rcases Array.mem_push.1 hs' with hs' | rfl
      · exact h.statements s' hs'
      · exact hi s' rfl
    · have := h.labels l hl
      simp only [Program.add, Array.size_push]
      omega

theorem Program.proper_foldl_add {items : List Item} {p : Program} (h : p.Proper)
    (hi : ∀ s, .statement s ∈ items → s.Proper) : (items.foldl Program.add p).Proper := by
  induction items generalizing p with
  | nil => exact h
  | cons item items ih =>
    exact ih (h.add fun s hs => hi s (by simp [hs])) fun s hs => hi s (by simp [hs])

theorem Program.proper_empty : Program.empty.Proper := ⟨by simp [empty], by simp [empty]⟩

/-- **A parsed program is proper.** -/
theorem proper_of_parse {source : String} {p : Program} (h : Program.parse source = .ok p) :
    p.Proper := by
  obtain ⟨items, hder, -, rfl⟩ := ofTokens_eq_ok_iff.1 h
  refine Program.proper_foldl_add Program.proper_empty (hder.proper fun t ht => ?_)
  exact spelled_of_mem_scan (List.takeWhile_subset _ ht)

/-! ## Complaints about well spelled tokens -/

/-- The number of a number token can be read. -/
def Token.Readable (t : Token) : Prop :=
  t.kind = .number → (Number.ofGrouped? t.text).isSome = true

/-- The complaint is one about the grammar. -/
def Complaint.Legible : Complaint → Prop
  | unreadable _ => False
  | _ => True

/-- A parse does not fail at a number that cannot be read. -/
def Parsed.Legible {α : Type} {bound : Nat} : Parsed α bound → Prop
  | .done _ _ _ => True
  | .failed complaint _ _ => complaint.Legible

namespace Parsed

variable {α β : Type} {bound : Nat}

theorem Legible.widen {larger : Nat} {h : bound ≤ larger} {p : Parsed α bound} (hp : p.Legible) :
    (p.widen h).Legible := by
  cases p <;> exact hp

theorem Legible.andThen {p : Parsed α bound}
    {next : α → (rest : List Token) → rest.length < bound → Parsed β bound} (hp : p.Legible)
    (hn : ∀ a rest h, p.Gives a rest → (next a rest h).Legible) : (p.andThen next).Legible := by
  cases p with
  | done a rest h => exact hn a rest h ⟨h, rfl⟩
  | failed => exact hp

end Parsed

theorem Begins.mem_of_mem {ph : Phrase} {d : Nat} {tokens rest : List Token} {e : Expr}
    (h : Begins ph d tokens e rest) {t : Token} (ht : t ∈ rest) : t ∈ tokens := by
  obtain ⟨ts, rfl, -⟩ := h
  exact List.mem_append_right ts ht

-- The three theorems follow the recursion of the parser.
mutual

theorem legible_parseExpr {d : Nat} {tokens : List Token} (hd : d ≤ maxNesting)
    (hr : ∀ t ∈ tokens, t.Readable) : (parseExpr d tokens).Legible := by
  rw [parseExpr]
  split
  · rename_i hp
    have := @legible_parseAtomic d tokens hr
    rwa [hp] at this
  · rename_i hp
    have hb := begins_of_parseAtomic hd ⟨_, hp⟩
    exact legible_parseChain hd fun t ht => hr t (hb.mem_of_mem ht)
termination_by 2 * tokens.length + 1
decreasing_by all_goals omega

theorem legible_parseChain {bound d : Nat} {left : Expr} {tokens : List Token} {h}
    (hd : d ≤ maxNesting) (hr : ∀ t ∈ tokens, t.Readable) :
    (parseChain bound d left tokens h).Legible := by
  match tokens, h, hr with
  | [], _, _ => rw [parseChain]; trivial
  | t :: tokens, h, hr =>
    have hr' : ∀ t ∈ tokens, t.Readable := fun u hu => hr u (by simp [hu])
    rw [parseChain]
    split
    · split
      · rename_i hp
        have := @legible_parseAtomic d tokens hr'
        rwa [hp] at this
      · rename_i hp
        have hb := begins_of_parseAtomic hd ⟨_, hp⟩
        exact legible_parseChain hd fun t ht => hr' t (hb.mem_of_mem ht)
    · trivial
termination_by 2 * tokens.length + 1
decreasing_by all_goals (simp only [List.length_cons] at *; omega)

theorem legible_parseAtomic {d : Nat} {tokens : List Token} (hr : ∀ t ∈ tokens, t.Readable) :
    (parseAtomic d tokens).Legible := by
  match tokens, hr with
  | [], _ => rw [parseAtomic]; trivial
  | t :: tokens, hr =>
    rw [parseAtomic]
    split
    · trivial
    · rename_i hk
      obtain ⟨x, hx⟩ := Option.isSome_iff_exists.1 (hr t (by simp) hk)
      rw [hx]
      trivial
    · trivial
    · split
      · trivial
      · split
        · rename_i hp
          have := @legible_parseExpr (d + 1) tokens (by omega) fun u hu => hr u (by simp [hu])
          rwa [hp] at this
        · trivial
        · split <;> trivial
    · trivial
termination_by 2 * tokens.length
decreasing_by all_goals (simp only [List.length_cons] at *; omega)

end

section
variable {d : Nat} {kind : TokenKind} {word : String} {tokens : List Token}

theorem legible_parseToken : (parseToken kind d tokens).Legible := by
  cases tokens with
  | nil => trivial
  | cons t tokens => rw [parseToken]; split <;> trivial

theorem legible_parseWord : (parseWord word d tokens).Legible := by
  cases tokens with
  | nil => trivial
  | cons t tokens => rw [parseWord]; split <;> trivial

theorem legible_parseIfThen (hd : d ≤ maxNesting) (hr : ∀ t ∈ tokens, t.Readable) :
    (parseIfThen d tokens).Legible :=
  (legible_parseExpr hd hr).andThen fun _ _ _ _ =>
    legible_parseWord.widen.andThen fun _ _ _ _ =>
      legible_parseToken.widen.andThen fun _ _ _ _ => trivial

theorem legible_parseStatement (hd : d ≤ maxNesting) (hr : ∀ t ∈ tokens, t.Readable) :
    (parseStatement d tokens).Legible := by
  cases tokens with
  | nil => trivial
  | cons t tokens =>
    have hr' : ∀ t ∈ tokens, t.Readable := fun u hu => hr u (by simp [hu])
    rw [parseStatement]
    split
    · have hr'' : ∀ t ∈ tokens.tail, t.Readable := fun u hu => hr' u (List.mem_of_mem_tail hu)
      exact (legible_parseExpr hd hr'').widen.andThen fun _ _ _ _ => trivial
    · split
      · exact (legible_parseExpr hd hr').widen.andThen fun _ _ _ _ => trivial
      · split
        · exact legible_parseToken.widen.andThen fun _ _ _ _ => trivial
        · split
          · exact (legible_parseIfThen hd hr').widen
          · trivial

theorem legible_parseProgramFrom {bound : Nat} {p : Program} {h} (hd : d ≤ maxNesting)
    (hr : ∀ t ∈ tokens, t.Readable) : (parseProgramFrom bound d p tokens h).Legible := by
  fun_induction parseProgramFrom bound d p tokens h with
  | case1 | case3 => trivial
  | case2 p t tokens h ht _ ih => exact ih fun u hu => hr u (by simp [hu])
  | case4 p t tokens h ht labels _ ih => exact ih fun u hu => hr u (by simp [hu])
  | case5 p t tokens h c after d' hp =>
    have := legible_parseStatement hd hr
    rwa [hp] at this
  | case6 p t tokens h s after shorter hp statements hl he hb _ ih =>
    obtain ⟨us, heq, -⟩ := derives_of_parseStatement hd ⟨shorter, hp⟩
    exact ih fun u hu => hr u (heq ▸ List.mem_append_right us hu)

end

/-- The numbers of a text can be read. -/
theorem legible_parseProgram (source : String) : (parseProgram 0 (Token.scan source)).Legible :=
  legible_parseProgramFrom (Nat.zero_le _) fun _ ht => isSome_of_mem_scan ht

/-- **Parsing a text fails at its grammar only.** -/
theorem name_of_parse {source : String} {e : ParseError} (h : Program.parse source = .error e) :
    (Failure.parse e).name = "ParseError" := by
  have hl := legible_parseProgram source
  rw [Program.parse, ofTokens_eq_result] at h
  generalize parseProgram 0 (Token.scan source) = p at h hl
  cases p with
  | done => cases h
  | failed c rest d =>
    cases h
    cases c with
    | unreadable => exact absurd hl id
    | _ => rfl

end GotoBasic
