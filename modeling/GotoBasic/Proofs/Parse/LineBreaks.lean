/-
  Line breaks carry no meaning.

  * `withoutLines tokens`: the tokens that are no line breaks;
  * `DerivesProgram.withoutLines`: without its line breaks a program has the
    same items, since every statement ends where the next one begins;
  * `ofTokens_withoutLines`: tokens that are a program are the same one without
    their line breaks;
  * `line_breaks_meaningless`: so tokens that differ in line breaks only have
    the same program, if they have one.

  A line break may keep tokens from being a program, where it stands inside a
  statement.
-/
import GotoBasic.Proofs.Parse.Blocks

namespace GotoBasic

/-- The tokens that are no line breaks. -/
def withoutLines (tokens : List Token) : List Token := tokens.filter (·.kind != .line)

section
variable {t : Token} {ts us : List Token}

theorem withoutLines_append : withoutLines (ts ++ us) = withoutLines ts ++ withoutLines us :=
  List.filter_append ts us

theorem withoutLines_line (ht : t.kind = .line) : withoutLines (t :: ts) = withoutLines ts := by
  simp [withoutLines, ht]

theorem withoutLines_other (ht : t.kind ≠ .line) :
    withoutLines (t :: ts) = t :: withoutLines ts := by
  simp [withoutLines, ht]

theorem AllLines.withoutLines_eq (h : AllLines ts) : withoutLines ts = [] := by
  simpa [withoutLines, AllLines] using h

end

/-! ## Programs -/

/-- No statement holds a line break. -/
theorem DerivesStatement.withoutLines_eq {ts : List Token} {s : Statement}
    (h : DerivesStatement ts s) : withoutLines ts = ts := by
  refine List.filter_eq_self.2 fun t ht => ?_
  have hk := h.separates_eq t ht
  have hline : t.kind ≠ .line := by
    intro heq
    rw [heq] at hk
    cases hk
  simpa using hline

/-- **Without its line breaks a program has the same items.** -/
theorem DerivesProgram.withoutLines {ts : List Token} {items : List Item}
    (h : DerivesProgram ts items) : DerivesProgram (withoutLines ts) items := by
  induction h with
  | lines hls =>
    rw [hls.withoutLines_eq]
    exact .lines allLines_nil
  | @label ls t ts items hls ht _ ih =>
    rw [withoutLines_append, hls.withoutLines_eq, withoutLines_other (by simp [ht])]
    exact .label allLines_nil ht ih
  | @statement ls ts us s items hls hs _ ih =>
    rw [withoutLines_append, withoutLines_append, hls.withoutLines_eq, hs.withoutLines_eq]
    exact .statement allLines_nil hs ih

theorem nestedWithin_withoutLines {n : Int} {ts : List Token} :
    NestedWithin n (withoutLines ts) ↔ NestedWithin n ts := by
  induction ts generalizing n with
  | nil => rfl
  | cons t ts ih =>
    by_cases ht : t.kind = .line
    · rw [withoutLines_line ht, ih, nestedWithin_cons_other (by simp [ht]) (by simp [ht])]
    · rw [withoutLines_other ht, nestedWithin_cons, ih, nestedWithin_cons]

theorem upToEnd_withoutLines (ts : List Token) :
    upToEnd (withoutLines ts) = withoutLines (upToEnd ts) := by
  induction ts with
  | nil => rfl
  | cons t ts ih =>
    by_cases ht : t.kind = .line
    · rw [withoutLines_line ht, upToEnd_cons (by simp [ht]), withoutLines_line ht, ih]
    · rw [withoutLines_other ht]
      by_cases he : t.kind = .eof
      · simp [upToEnd, he, GotoBasic.withoutLines]
      · rw [upToEnd_cons he, upToEnd_cons he, withoutLines_other ht, ih]

/-- **Tokens that are a program are the same one without line breaks.** -/
theorem ofTokens_withoutLines {tokens : List Token} {p : Program}
    (h : Program.ofTokens tokens = .ok p) : Program.ofTokens (withoutLines tokens) = .ok p := by
  obtain ⟨items, hder, hn, rfl⟩ := ofTokens_eq_ok_iff.1 h
  refine ofTokens_eq_ok_iff.2 ⟨items, ?_, ?_, rfl⟩
  · rw [upToEnd_withoutLines]
    exact hder.withoutLines
  · rw [upToEnd_withoutLines, nestedWithin_withoutLines]
    exact hn

/-- **Line breaks carry no meaning in programs.**  Tokens that are a program are
    the same one, with the same statements and labels, when all line breaks are
    deleted; so tokens that differ in line breaks and places only have the same
    program, if each has one. -/
theorem line_breaks_meaningless :
    (∀ (tokens : List Token) (p : Program), Program.ofTokens tokens = .ok p →
      Program.ofTokens (withoutLines tokens) = .ok p) ∧
    ∀ (tokens tokens' : List Token) (p p' : Program),
      Program.ofTokens tokens = .ok p → Program.ofTokens tokens' = .ok p' →
      (withoutLines tokens).map Token.lexeme = (withoutLines tokens').map Token.lexeme →
      p = p' := by
  refine ⟨fun _ _ => ofTokens_withoutLines, ?_⟩
  intro tokens tokens' p p' h h' hlex
  have hp := ofTokens_withoutLines h
  have hp' := ofTokens_withoutLines h'
  rcases eq_or_ne (withoutLines tokens) [] with hnil | hne
  · have hnil' : withoutLines tokens' = [] := by
      rw [hnil] at hlex
      exact List.map_eq_nil_iff.1 hlex.symm
    rw [hnil] at hp
    rw [hnil'] at hp'
    exact Except.ok.inj (hp.symm.trans hp')
  · exact Except.ok.inj ((ofTokens_eq_ok_of_lexemes hne hlex hp).symm.trans hp')

/-- Statements that run into one another without their line breaks. -/
theorem line_breaks_meaningless_junctions :
    ∃ p, Program.parse "print x\ny = 3\nif y then a\nprint = 2\n:a" = .ok p ∧
      Program.ofTokens (withoutLines
        (Token.scan "print x\ny = 3\nif y then a\nprint = 2\n:a")) = .ok p ∧
      Program.parse "print x y = 3 if y then a print = 2 :a" = .ok p := by
  obtain ⟨p, hp, -⟩ : ∃ p, Program.parse "print x\ny = 3\nif y then a\nprint = 2\n:a" = .ok p ∧
      p.statements.size = 4 ∧ p.labels = [("a", 4)] := exists_parse_of_summary (by decide +kernel)
  obtain ⟨q, hq, -⟩ : ∃ q, Program.parse "print x y = 3 if y then a print = 2 :a" = .ok q ∧
      q.statements.size = 4 ∧ q.labels = [("a", 4)] := exists_parse_of_summary (by decide +kernel)
  obtain rfl := line_breaks_meaningless.2 _ _ p q hp hq (by decide +kernel)
  exact ⟨p, hp, line_breaks_meaningless.1 _ p hp, hq⟩

-- A line break inside a statement is not allowed.
example : (Program.parse "goto\na").isOk = false ∧ (Program.parse "goto a").isOk = true := by
  decide +kernel

end GotoBasic
