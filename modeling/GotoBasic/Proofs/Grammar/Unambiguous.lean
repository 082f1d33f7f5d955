/-
  The grammar is unambiguous: tokens are derived in one way at most.

  * `Derives.unique`, `DerivesStatement.unique`: of two phrases of one kind,
    or of two statements, in front of the same tokens, neither followed by an
    operator, both are the same;
  * `DerivesProgram.unique`: the tokens of a program give one list of items.

  No bound on parentheses is needed for this.
-/
import GotoBasic.Proofs.Grammar.Expr

namespace GotoBasic

/-- **Phrases are unambiguous.** -/
theorem Derives.unique {ph : Phrase} {ts : List Token} {e : Expr} (h : Derives ph ts e) :
    ∀ {ts' rest rest' : List Token} {e' : Expr}, Derives ph ts' e' → ts ++ rest = ts' ++ rest' →
      ph.EndsBefore rest → ph.EndsBefore rest' → ts = ts' ∧ e = e' := by
  induction h with
  | word hk =>
    intro ts' rest rest' e' h' heq _ _
    cases h' with
    | word _ =>
      obtain ⟨rfl, -⟩ := List.cons.inj heq
      exact ⟨rfl, rfl⟩
    | number hk' _ | string hk' | parens hk' _ _ =>
      obtain ⟨rfl, -⟩ := List.cons.inj heq
      simp [hk] at hk'
  | number hk hx =>
    intro ts' rest rest' e' h' heq _ _
    cases h' with
    | number _ hx' =>
      obtain ⟨rfl, -⟩ := List.cons.inj heq
      rw [hx] at hx'
      cases hx'
      exact ⟨rfl, rfl⟩
    | word hk' | string hk' | parens hk' _ _ =>
      obtain ⟨rfl, -⟩ := List.cons.inj heq
      simp [hk] at hk'
  | string hk =>
    intro ts' rest rest' e' h' heq _ _
    cases h' with
    | string _ =>
      obtain ⟨rfl, -⟩ := List.cons.inj heq
      exact ⟨rfl, rfl⟩
    | word hk' | number hk' _ | parens hk' _ _ =>
      obtain ⟨rfl, -⟩ := List.cons.inj heq
      simp [hk] at hk'
  | @parens t u ts e hk _ hu ih =>
    intro ts' rest rest' e' h' heq _ _
    cases h' with
    | @parens t' u' us e' hk' hts' hu' =>
      simp only [List.append_assoc, List.cons_append, List.nil_append, List.cons.injEq] at heq
      obtain ⟨rfl, heq⟩ := heq
      obtain ⟨rfl, rfl⟩ :=
        ih hts' heq (endsChain_of_rightParen hu) (endsChain_of_rightParen hu')
      obtain ⟨rfl, -⟩ := List.cons.inj (List.append_cancel_left heq)
      exact ⟨rfl, rfl⟩
    | word hk' | number hk' _ | string hk' =>
      obtain ⟨rfl, -⟩ := List.cons.inj heq
      simp [hk] at hk'
  | expr _ _ ih₁ ih₂ =>
    intro ts' rest rest' e' h' heq he he'
    cases h' with
    | expr hts' hus' =>
      rw [List.append_assoc, List.append_assoc] at heq
      obtain ⟨rfl, rfl⟩ := ih₁ hts' heq trivial trivial
      obtain ⟨rfl, rfl⟩ := ih₂ hus' (List.append_cancel_left heq) he he'
      exact ⟨rfl, rfl⟩
  | nothing =>
    intro ts' rest rest' e' h' heq he _
    cases h' with
    | nothing => exact ⟨rfl, rfl⟩
    | link ht' _ _ =>
      rw [List.nil_append, List.cons_append] at heq
      subst heq
      simp [endsChain_cons_iff.1 he] at ht'
  | link ht _ _ ih₁ ih₂ =>
    intro ts' rest rest' e' h' heq he he'
    cases h' with
    | nothing =>
      rw [List.nil_append, List.cons_append] at heq
      subst heq
      simp [endsChain_cons_iff.1 he'] at ht
    | link _ hts' hus' =>
      simp only [List.append_assoc, List.cons_append, List.cons.injEq] at heq
      obtain ⟨rfl, heq⟩ := heq
      obtain ⟨rfl, rfl⟩ := ih₁ hts' heq trivial trivial
      obtain ⟨rfl, rfl⟩ := ih₂ hus' (List.append_cancel_left heq) he he'
      exact ⟨rfl, rfl⟩

/-! ## Statements -/

theorem Token.isWord_of_ne {t : Token} {word other : String} (h : t.isWord word = true)
    (hne : word ≠ other) : t.isWord other = false := by
  rw [isWord_iff] at h
  simp [isWord, h, hne]

/-- A statement starts with a word. -/
theorem DerivesStatement.starts {ts : List Token} {s : Statement} (h : DerivesStatement ts s) :
    ∃ t us, ts = t :: us ∧ t.kind = .word := by
  cases h with
  | assign ht _ _ => exact ⟨_, _, rfl, ht⟩
  | print ht _ | goto ht _ | ifThen ht _ _ _ => exact ⟨_, _, rfl, (Token.isWord_iff.1 ht).1⟩

/-- An expression does not start with an equals sign. -/
theorem Derives.startsWithEquals_eq {ph : Phrase} {ts : List Token} {e : Expr}
    (h : Derives ph ts e) : (∀ left, ph ≠ .after left) → ∀ rest,
      startsWithEquals (ts ++ rest) = false := by
  induction h with
  | word hk | number hk _ | string hk | parens hk _ _ _ =>
    intro _ rest
    simp [startsWithEquals, hk]
  | expr _ _ ih _ =>
    intro _ rest
    rw [List.append_assoc]
    exact ih (by simp) _
  | nothing | link => intro hne; exact absurd rfl (hne _)

/-- The keyword of a statement; an assignment has none. -/
def Statement.keyword? : Statement → Option String
  | print _ => some "print"
  | goto _ => some "goto"
  | ifThen _ _ => some "if"
  | _ => none

/-- The keyword in front of the tokens: the first word, unless it is assigned
    to. -/
def keyword? (tokens : List Token) : Option String :=
  if startsWithEquals tokens.tail then none else tokens.head?.map (·.text)

/-- The first two tokens of a statement tell its keyword. -/
theorem DerivesStatement.keyword?_eq {ts : List Token} {s : Statement} (h : DerivesStatement ts s)
    (rest : List Token) : keyword? (ts ++ rest) = s.keyword? := by
  cases h with
  | assign _ hu _ => simp [keyword?, Statement.keyword?, startsWithEquals, hu]
  | print ht hts =>
    simp [keyword?, Statement.keyword?, hts.startsWithEquals_eq (by simp), Token.isWord_iff.1 ht]
  | goto ht hu =>
    simp [keyword?, Statement.keyword?, startsWithEquals, hu, Token.isWord_iff.1 ht]
  | ifThen ht hts _ _ =>
    simp [keyword?, Statement.keyword?, hts.startsWithEquals_eq (by simp), Token.isWord_iff.1 ht]

theorem endsChain_of_word {t : Token} {rest : List Token} (h : t.kind = .word) :
    EndsChain (t :: rest) :=
  endsChain_cons_iff.2 (by simp [Token.joins, h])

/-- **Statements are unambiguous.** -/
theorem DerivesStatement.unique {ts ts' rest rest' : List Token} {s s' : Statement}
    (h : DerivesStatement ts s) (h' : DerivesStatement ts' s') (heq : ts ++ rest = ts' ++ rest')
    (he : EndsChain rest) (he' : EndsChain rest') : ts = ts' ∧ s = s' := by
  have hk : s.keyword? = s'.keyword? := by rw [← h.keyword?_eq rest, heq, h'.keyword?_eq rest']
  -- statements with different keywords differ there already
  cases h <;> cases h' <;> simp [Statement.keyword?] at hk
  case assign.assign hts _ _ _ _ _ _ hts' =>
    simp only [List.cons_append, List.cons.injEq] at heq
    obtain ⟨rfl, rfl, heq⟩ := heq
    obtain ⟨rfl, rfl⟩ := hts.unique hts' heq he he'
    exact ⟨rfl, rfl⟩
  case print.print hts _ _ _ _ hts' =>
    simp only [List.cons_append, List.cons.injEq] at heq
    obtain ⟨rfl, heq⟩ := heq
    obtain ⟨rfl, rfl⟩ := hts.unique hts' heq he he'
    exact ⟨rfl, rfl⟩
  case goto.goto =>
    simp only [List.cons_append, List.cons.injEq] at heq
    obtain ⟨rfl, rfl, -⟩ := heq
    exact ⟨rfl, rfl⟩
  case ifThen.ifThen hts hu hv _ _ _ _ _ _ hts' hu' hv' =>
    simp only [List.append_assoc, List.cons_append, List.nil_append, List.cons.injEq] at heq
    obtain ⟨rfl, heq⟩ := heq
    obtain ⟨rfl, rfl⟩ := hts.unique hts' heq (endsChain_of_word (Token.isWord_iff.1 hu).1)
      (endsChain_of_word (Token.isWord_iff.1 hu').1)
    simp only [List.append_cancel_left_eq, List.cons.injEq] at heq
    obtain ⟨rfl, rfl, -⟩ := heq
    exact ⟨rfl, rfl⟩

/-! ## Programs -/

theorem allLines_nil : AllLines [] := by simp [AllLines]

theorem allLines_cons {t : Token} {ts : List Token} :
    AllLines (t :: ts) ↔ t.kind = .line ∧ AllLines ts := by
  simp [AllLines]

/-- A program is empty, or starts with a line break, a label or a
    statement. -/
theorem DerivesProgram.starts {ts : List Token} {items : List Item} (h : DerivesProgram ts items) :
    (ts = [] ∧ items = []) ∨
    (∃ t us, ts = t :: us ∧ t.kind = .line ∧ DerivesProgram us items) ∨
    (∃ t us later, ts = t :: us ∧ t.kind = .label ∧ items = .label t.text :: later ∧
      DerivesProgram us later) ∨
    (∃ us vs s later, ts = us ++ vs ∧ items = .statement s :: later ∧ DerivesStatement us s ∧
      DerivesProgram vs later) := by
  cases h with
  | lines hls =>
    cases ts with
    | nil => exact .inl ⟨rfl, rfl⟩
    | cons l ls =>
      obtain ⟨hl, hls⟩ := allLines_cons.1 hls
      exact .inr (.inl ⟨l, ls, rfl, hl, .lines hls⟩)
  | @label ls t us later hls ht hp =>
    cases ls with
    | nil => exact .inr (.inr (.inl ⟨t, us, later, rfl, ht, rfl, hp⟩))
    | cons l ls =>
      obtain ⟨hl, hls⟩ := allLines_cons.1 hls
      exact .inr (.inl ⟨l, _, rfl, hl, .label hls ht hp⟩)
  | @statement ls us vs s later hls hs hp =>
    cases ls with
    | nil => exact .inr (.inr (.inr ⟨us, vs, s, later, rfl, rfl, hs, hp⟩))
    | cons l ls =>
      obtain ⟨hl, hls⟩ := allLines_cons.1 hls
      exact .inr (.inl ⟨l, _, rfl, hl, .statement hls hs hp⟩)

theorem derivesProgram_nil {items : List Item} : DerivesProgram [] items ↔ items = [] := by
  constructor
  · intro h
    rcases h.starts with ⟨-, rfl⟩ | ⟨t, us, heq, -⟩ | ⟨t, us, _, heq, -⟩ |
      ⟨us, vs, s, _, heq, -, hs, -⟩
    · rfl
    · simp at heq
    · simp at heq
    · obtain ⟨t, us, rfl, -⟩ := hs.starts
      simp at heq
  · rintro rfl
    exact .lines allLines_nil

section
variable {t : Token} {ts : List Token} {items : List Item}

/-- A line break in front of a program does not matter. -/
theorem derivesProgram_line (ht : t.kind = .line) :
    DerivesProgram (t :: ts) items ↔ DerivesProgram ts items := by
  constructor
  · intro h
    rcases h.starts with ⟨heq, -⟩ | ⟨u, us, heq, -, hp⟩ | ⟨u, us, _, heq, hu, -⟩ |
      ⟨us, vs, s, _, heq, -, hs, -⟩
    · simp at heq
    · obtain ⟨-, rfl⟩ := List.cons.inj heq
      exact hp
    · obtain ⟨rfl, -⟩ := List.cons.inj heq
      simp [ht] at hu
    · obtain ⟨u, us, rfl, hu⟩ := hs.starts
      obtain ⟨rfl, -⟩ := List.cons.inj heq
      simp [ht] at hu
  · intro h
    cases h with
    | lines hls => exact .lines (allLines_cons.2 ⟨ht, hls⟩)
    | label hls hu hp => exact .label (allLines_cons.2 ⟨ht, hls⟩) hu hp
    | statement hls hs hp => exact .statement (allLines_cons.2 ⟨ht, hls⟩) hs hp

theorem derivesProgram_label (ht : t.kind = .label) : DerivesProgram (t :: ts) items ↔
    ∃ later, items = .label t.text :: later ∧ DerivesProgram ts later := by
  constructor
  · intro h
    rcases h.starts with ⟨heq, -⟩ | ⟨u, us, heq, hu, -⟩ | ⟨u, us, later, heq, -, rfl, hp⟩ |
      ⟨us, vs, s, _, heq, -, hs, -⟩
    · simp at heq
    · obtain ⟨rfl, -⟩ := List.cons.inj heq
      simp [ht] at hu
    · obtain ⟨rfl, rfl⟩ := List.cons.inj heq
      exact ⟨later, rfl, hp⟩
    · obtain ⟨u, us, rfl, hu⟩ := hs.starts
      obtain ⟨rfl, -⟩ := List.cons.inj heq
      simp [ht] at hu
  · rintro ⟨later, rfl, h⟩
    exact .label allLines_nil ht h

/-- A program that starts with neither a line break nor a label starts with a
    statement. -/
theorem derivesProgram_statement (hl : t.kind ≠ .line) (hb : t.kind ≠ .label) :
    DerivesProgram (t :: ts) items ↔ ∃ us vs s later, t :: ts = us ++ vs ∧
      items = .statement s :: later ∧ DerivesStatement us s ∧ DerivesProgram vs later := by
  constructor
  · intro h
    rcases h.starts with ⟨heq, -⟩ | ⟨u, us, heq, hu, -⟩ | ⟨u, us, _, heq, hu, -⟩ | h
    · simp at heq
    · obtain ⟨rfl, -⟩ := List.cons.inj heq
      exact absurd hu hl
    · obtain ⟨rfl, -⟩ := List.cons.inj heq
      exact absurd hu hb
    · exact h
  · rintro ⟨us, vs, s, later, hts, rfl, hs, hp⟩
    rw [hts]
    exact .statement allLines_nil hs hp

end

/-- No operator stands in front of a program, or at the end of the text. -/
theorem DerivesProgram.endsChain {ts rest : List Token} {items : List Item}
    (h : DerivesProgram ts items) (hr : EndsChain rest) : EndsChain (ts ++ rest) := by
  rcases h.starts with ⟨rfl, -⟩ | ⟨t, us, rfl, ht, -⟩ | ⟨t, us, _, rfl, ht, -⟩ |
    ⟨us, vs, s, _, rfl, -, hs, -⟩
  · exact hr
  · exact endsChain_cons_iff.2 (by simp [Token.joins, ht])
  · exact endsChain_cons_iff.2 (by simp [Token.joins, ht])
  · obtain ⟨t, us, rfl, ht⟩ := hs.starts
    exact endsChain_of_word ht

/-- **Programs are unambiguous.** -/
theorem DerivesProgram.unique {ts : List Token} {items items' : List Item}
    (h : DerivesProgram ts items) (h' : DerivesProgram ts items') : items = items' := by
  rcases h.starts with ⟨rfl, rfl⟩ | ⟨t, us, rfl, ht, hp⟩ | ⟨t, us, later, rfl, ht, rfl, hp⟩ |
    ⟨us, vs, s, later, rfl, rfl, hs, hp⟩
  · exact (derivesProgram_nil.1 h').symm
  · exact hp.unique ((derivesProgram_line ht).1 h')
  · obtain ⟨later', rfl, hp'⟩ := (derivesProgram_label ht).1 h'
    rw [hp.unique hp']
  · obtain ⟨t, us, rfl, ht⟩ := hs.starts
    obtain ⟨us', vs', s', later', heq, rfl, hs', hp'⟩ :=
      (derivesProgram_statement (by simp [ht]) (by simp [ht])).1 h'
    have hnil : EndsChain [] := by simp [EndsChain]
    have he := hp.endsChain hnil
    have he' := hp'.endsChain hnil
    rw [List.append_nil] at he he'
    obtain ⟨rfl, rfl⟩ := hs.unique hs' heq he he'
    obtain rfl : vs = vs' := by simpa using heq
    rw [hp.unique hp']
termination_by ts.length

end GotoBasic
