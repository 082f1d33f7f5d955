/-
  The parser of programs and the grammar.

  * `derives_of_parseStatement`, `DerivesStatement.parses`: the parser of
    statements finds the statements of the grammar;
  * `parseProgramFrom_gives_iff`: so does the loop over a program, up to the
    first token for the end of the text;
  * `ofTokens_eq_ok_iff`: a list of tokens has a program iff the tokens up to
    that end are a program of the grammar with few enough open parentheses.
-/
import GotoBasic.Proofs.Decimal.Grammar
import GotoBasic.Proofs.Grammar.Unambiguous
import GotoBasic.Proofs.Token.Spelling

namespace GotoBasic

/-! ## Statements -/

section
variable {d : Nat} {kind : TokenKind} {word : String} {t : Token} {ts tokens rest : List Token}
  {s : Statement}

theorem parseToken_gives_iff :
    (parseToken kind d tokens).Gives t rest ↔ tokens = t :: rest ∧ t.kind = kind := by
  cases tokens with
  | nil => simp [parseToken]
  | cons u tokens =>
    simp only [parseToken]
    split <;> simp only [Parsed.gives_done, Parsed.not_gives_failed] <;> grind

theorem parseWord_gives_iff :
    (parseWord word d tokens).Gives t rest ↔ tokens = t :: rest ∧ t.isWord word = true := by
  cases tokens with
  | nil => simp [parseWord]
  | cons u tokens =>
    simp only [parseWord]
    split <;> simp only [Parsed.gives_done, Parsed.not_gives_failed] <;> grind

theorem parseIfThen_gives_iff :
    (parseIfThen d tokens).Gives s rest ↔ ∃ e t u, (parseExpr d tokens).Gives e (t :: u :: rest) ∧
      t.isWord "then" = true ∧ u.kind = .word ∧ s = .ifThen e (.text u.text) := by
  simp only [parseIfThen, Parsed.gives_andThen, Parsed.gives_widen, Parsed.gives_done,
    parseToken_gives_iff, parseWord_gives_iff]
  constructor
  · rintro ⟨e, _, -, he, t, _, -, ⟨rfl, ht⟩, u, _, -, ⟨rfl, hu⟩, rfl, rfl⟩
    exact ⟨e, t, u, he, ht, hu, rfl⟩
  · rintro ⟨e, t, u, he, ht, hu, rfl⟩
    have hl := he.length_lt
    have hl' := Token.length_lt_of_cons hl
    exact ⟨e, _, hl, he, t, _, hl', ⟨rfl, ht⟩, u, _, Token.length_lt_of_cons hl', ⟨rfl, hu⟩,
      rfl, rfl⟩

theorem openParens_cons_word (ht : t.kind = .word) : openParens (t :: ts) = openParens ts :=
  openParens_cons_other (by simp [ht]) (by simp [ht])

theorem nestedWithin_cons_word {n : Int} (ht : t.kind = .word) :
    NestedWithin n (t :: ts) ↔ NestedWithin n ts :=
  nestedWithin_cons_other (by simp [ht]) (by simp [ht])

/-- A statement may end in front of these tokens; only an expression at its
    end would go on with them. -/
def Statement.EndsBefore : Statement → List Token → Prop
  | assign _ _, rest | print _, rest => EndsChain rest
  | _, _ => True

theorem EndsChain.endsBefore (h : EndsChain rest) : s.EndsBefore rest := by
  cases s <;> first | exact h | trivial

/-- **What is parsed as a statement is one.** -/
theorem derives_of_parseStatement (hd : d ≤ maxNesting)
    (h : (parseStatement d tokens).Gives s rest) :
    ∃ ts, tokens = ts ++ rest ∧ DerivesStatement ts s ∧ NestedWithin (maxNesting - d) ts ∧
      s.EndsBefore rest := by
  cases tokens with
  | nil => simp [parseStatement] at h
  | cons t tokens =>
    rw [parseStatement] at h
    split at h
    · rename_i hc
      obtain ⟨e, he, rfl⟩ := Parsed.gives_andThen_done.1 h
      rw [Parsed.gives_widen] at he
      cases tokens with
      | nil => simp [startsWithEquals] at hc
      | cons u tokens =>
        have hu : u.kind = .equals := by simpa [startsWithEquals] using hc.2
        obtain ⟨ts, rfl, hts, hn, hend⟩ := begins_of_parseExpr hd he
        refine ⟨t :: u :: ts, rfl, .assign hc.1 hu hts, ?_, hend⟩
        rw [nestedWithin_cons_word hc.1, nestedWithin_cons_other (by simp [hu]) (by simp [hu])]
        exact hn
    · split at h
      · rename_i ht
        obtain ⟨e, he, rfl⟩ := Parsed.gives_andThen_done.1 h
        obtain ⟨ts, rfl, hts, hn, hend⟩ := begins_of_parseExpr hd (Parsed.gives_widen.1 he)
        exact ⟨t :: ts, rfl, .print ht hts,
          (nestedWithin_cons_word (Token.isWord_iff.1 ht).1).2 hn, hend⟩
      · split at h
        · rename_i ht
          obtain ⟨u, hp, rfl⟩ := Parsed.gives_andThen_done.1 h
          obtain ⟨rfl, hu⟩ := parseToken_gives_iff.1 (Parsed.gives_widen.1 hp)
          refine ⟨[t, u], rfl, .goto ht hu, ?_, trivial⟩
          rw [nestedWithin_cons_word (Token.isWord_iff.1 ht).1, nestedWithin_cons_word hu,
            nestedWithin_nil]
          omega
        · split at h
          · rename_i ht
            obtain ⟨e, u, v, he, hu, hv, rfl⟩ :=
              parseIfThen_gives_iff.1 (Parsed.gives_widen.1 h)
            obtain ⟨ts, rfl, hts, hn, -⟩ := begins_of_parseExpr hd he
            refine ⟨t :: (ts ++ [u, v]), by simp, .ifThen ht hts hu hv, ?_, trivial⟩
            rw [nestedWithin_cons_word (Token.isWord_iff.1 ht).1, nestedWithin_append,
              hts.openParens_eq, Int.sub_zero, nestedWithin_cons_word (Token.isWord_iff.1 hu).1,
              nestedWithin_cons_word hv, nestedWithin_nil]
            exact ⟨hn, hn.nonneg⟩
          · simp at h

/-- **A statement is parsed as one**, if no operator goes on with it. -/
theorem DerivesStatement.parses (h : DerivesStatement ts s) (hn : NestedWithin (maxNesting - d) ts)
    (he : s.EndsBefore rest) : (parseStatement d (ts ++ rest)).Gives s rest := by
  cases h with
  | @assign t u ts e ht hu hts =>
    rw [nestedWithin_cons_word ht, nestedWithin_cons_other (by simp [hu]) (by simp [hu])] at hn
    have hc : startsWithEquals (u :: (ts ++ rest)) = true := by simpa [startsWithEquals] using hu
    rw [List.cons_append, List.cons_append, parseStatement, if_pos ⟨ht, hc⟩]
    exact Parsed.gives_andThen_done.2 ⟨_, Parsed.gives_widen.2 (hts.parses hn he), rfl⟩
  | print ht hts =>
    rw [nestedWithin_cons_word (Token.isWord_iff.1 ht).1] at hn
    have hne := hts.startsWithEquals_eq (by simp) rest
    rw [List.cons_append, parseStatement, if_neg (by simp [hne]), if_pos ht]
    exact Parsed.gives_andThen_done.2 ⟨_, Parsed.gives_widen.2 (hts.parses hn he), rfl⟩
  | goto ht hu =>
    have ht' : Token.isWord _ "print" = false := Token.isWord_of_ne ht (by decide)
    rw [List.cons_append, parseStatement, if_neg (by simp [startsWithEquals, hu]),
      if_neg (by simp [ht']), if_pos ht]
    exact Parsed.gives_andThen_done.2
      ⟨_, Parsed.gives_widen.2 (parseToken_gives_iff.2 ⟨rfl, hu⟩), rfl⟩
  | @ifThen t u v ts e ht hts hu hv =>
    rw [nestedWithin_cons_word (Token.isWord_iff.1 ht).1, nestedWithin_append] at hn
    have hp : (parseExpr d (ts ++ (u :: v :: rest))).Gives e (u :: v :: rest) :=
      hts.parses hn.1 (endsChain_of_word (Token.isWord_iff.1 hu).1)
    have hne := hts.startsWithEquals_eq (by simp) (u :: v :: rest)
    have ht' : t.isWord "print" = false := Token.isWord_of_ne ht (by decide)
    have ht'' : t.isWord "goto" = false := Token.isWord_of_ne ht (by decide)
    have hts' : t :: (ts ++ [u, v]) ++ rest = t :: (ts ++ u :: v :: rest) := by simp
    rw [hts', parseStatement, if_neg (by simp [hne]), if_neg (by simp [ht']),
      if_neg (by simp [ht'']), if_pos ht]
    exact Parsed.gives_widen.2 (parseIfThen_gives_iff.2 ⟨e, u, v, hp, hu, hv, rfl⟩)

end

/-! ## Programs -/

/-- The kinds of tokens that stand between statements only. -/
def TokenKind.separates : TokenKind → Bool
  | line | label | eof => true
  | _ => false

/-- No phrase holds a line break, a label or the end of the text. -/
theorem Derives.separates_eq {ph : Phrase} {ts : List Token} {e : Expr} (h : Derives ph ts e) :
    ∀ t ∈ ts, t.kind.separates = false := by
  induction h with
  | word hk | number hk _ | string hk => simp [hk, TokenKind.separates]
  | parens ht _ hu ih => simpa [or_imp, forall_and, ht, hu, TokenKind.separates] using ih
  | expr _ _ ih₁ ih₂ => simpa [or_imp, forall_and] using ⟨ih₁, ih₂⟩
  | nothing => simp
  | @link t _ _ _ _ _ ht _ _ ih₁ ih₂ =>
    have hk : t.kind.separates = false := by
      rcases t.kind_of_joins ht with hk | hk <;> rw [hk] <;> rfl
    simpa [or_imp, forall_and, hk] using ⟨ih₁, ih₂⟩

theorem DerivesStatement.separates_eq {ts : List Token} {s : Statement}
    (h : DerivesStatement ts s) : ∀ t ∈ ts, t.kind.separates = false := by
  have hword : TokenKind.word.separates = false := rfl
  cases h with
  | assign ht hu hts => simpa [ht, hu, TokenKind.separates] using hts.separates_eq
  | print ht hts => simpa [Token.isWord_iff.1 ht, hword] using hts.separates_eq
  | goto ht hu => simp [Token.isWord_iff.1 ht, hu, hword]
  | ifThen ht hts hu hv =>
    simpa [or_imp, forall_and, Token.isWord_iff.1 ht, Token.isWord_iff.1 hu, hv, hword] using
      hts.separates_eq

theorem DerivesStatement.ne_eof {ts : List Token} {s : Statement} (h : DerivesStatement ts s) :
    ∀ t ∈ ts, t.kind ≠ .eof := by
  intro t ht hk
  have := h.separates_eq t ht
  rw [hk] at this
  cases this

theorem DerivesProgram.ne_eof {ts : List Token} {items : List Item} (h : DerivesProgram ts items) :
    ∀ t ∈ ts, t.kind ≠ .eof := by
  induction h with
  | lines hls => intro t ht; simp [hls t ht]
  | @label ls t ts items hls ht _ ih =>
    have hls' : ∀ t ∈ ls, t.kind ≠ .eof := fun t ht => by simp [hls t ht]
    simpa [or_imp, forall_and, ht] using ⟨hls', ih⟩
  | @statement ls ts us s items hls hst _ ih =>
    have hls' : ∀ t ∈ ls, t.kind ≠ .eof := fun t ht => by simp [hls t ht]
    simpa [or_imp, forall_and] using ⟨hls', hst.ne_eof, ih⟩

theorem DerivesStatement.openParens_eq {ts : List Token} {s : Statement}
    (h : DerivesStatement ts s) : openParens ts = 0 := by
  cases h with
  | assign ht hu hts =>
    rw [openParens_cons_word ht, openParens_cons_other (by simp [hu]) (by simp [hu])]
    exact hts.openParens_eq
  | print ht hts =>
    rw [openParens_cons_word (Token.isWord_iff.1 ht).1]
    exact hts.openParens_eq
  | goto ht hu => rw [openParens_cons_word (Token.isWord_iff.1 ht).1, openParens_cons_word hu]; rfl
  | ifThen ht hts hu hv =>
    rw [openParens_cons_word (Token.isWord_iff.1 ht).1, openParens_append, hts.openParens_eq,
      openParens_cons_word (Token.isWord_iff.1 hu).1, openParens_cons_word hv]
    rfl

/-- The tokens from the first one for the end of the text on. -/
def fromEnd (tokens : List Token) : List Token := tokens.dropWhile (·.kind != .eof)

theorem upToEnd_append_fromEnd (tokens : List Token) : upToEnd tokens ++ fromEnd tokens = tokens :=
  List.takeWhile_append_dropWhile

theorem endsChain_fromEnd (tokens : List Token) : EndsChain (fromEnd tokens) := by
  intro t ht
  have hk : t.kind = .eof := by
    have := List.head?_dropWhile_not (·.kind != .eof) tokens
    rw [fromEnd] at ht
    simpa [Option.mem_def.1 ht] using this
  simp [Token.joins, hk]

section
variable {t : Token} {us tokens : List Token}

theorem upToEnd_cons (ht : t.kind ≠ .eof) : upToEnd (t :: tokens) = t :: upToEnd tokens := by
  simp [upToEnd, ht]

theorem fromEnd_cons (ht : t.kind ≠ .eof) : fromEnd (t :: tokens) = fromEnd tokens := by
  simp [fromEnd, ht]

theorem upToEnd_append (hus : ∀ t ∈ us, t.kind ≠ .eof) :
    upToEnd (us ++ tokens) = us ++ upToEnd tokens := by
  simp only [upToEnd]
  exact List.takeWhile_append_of_pos (by simpa using hus)

theorem fromEnd_append (hus : ∀ t ∈ us, t.kind ≠ .eof) :
    fromEnd (us ++ tokens) = fromEnd tokens := by
  simp only [fromEnd]
  exact List.dropWhile_append_of_pos (by simpa using hus)

end

/-- The first statement of a program is parsed. -/
theorem DerivesProgram.parses_statement {d : Nat} {t : Token} {tokens : List Token}
    {items : List Item} (h : DerivesProgram (upToEnd (t :: tokens)) items)
    (hn : NestedWithin (maxNesting - d) (upToEnd (t :: tokens))) (hl : t.kind ≠ .line)
    (hb : t.kind ≠ .label) (he : t.kind ≠ .eof) :
    ∃ vs s later, items = .statement s :: later ∧ DerivesProgram vs later ∧
      (parseStatement d (t :: tokens)).Gives s (vs ++ fromEnd (t :: tokens)) := by
  have hsplit := upToEnd_append_fromEnd (t :: tokens)
  rw [upToEnd_cons he] at h
  obtain ⟨us, vs, s, later, heq, rfl, hs, hp⟩ := (derivesProgram_statement hl hb).1 h
  rw [← upToEnd_cons he] at heq
  refine ⟨vs, s, later, rfl, hp, ?_⟩
  rw [heq, nestedWithin_append] at hn
  have hparse := hs.parses hn.1 (hp.endsChain (endsChain_fromEnd (t :: tokens))).endsBefore
  rwa [← List.append_assoc, ← heq, hsplit] at hparse

/-- **The loop over a program** goes through the tokens up to the end of the
    text and adds the items that they derive. -/
theorem parseProgramFrom_gives_iff {bound d : Nat} {p q : Program} {tokens rest : List Token} {h}
    (hd : d ≤ maxNesting) : (parseProgramFrom bound d p tokens h).Gives q rest ↔
      rest = fromEnd tokens ∧ ∃ items, DerivesProgram (upToEnd tokens) items ∧
        NestedWithin (maxNesting - d) (upToEnd tokens) ∧ q = items.foldl Program.add p := by
  fun_induction parseProgramFrom bound d p tokens h with
  | case1 p h =>
    have hn : NestedWithin (maxNesting - d) [] := nestedWithin_nil.2 (by omega)
    simp [upToEnd, fromEnd, derivesProgram_nil, hn, eq_comm, and_comm]
  | case2 p t tokens h ht _ ih =>
    have he : t.kind ≠ .eof := by simp [ht]
    rw [ih, upToEnd_cons he, fromEnd_cons he,
      nestedWithin_cons_other (by simp [ht]) (by simp [ht])]
    simp only [derivesProgram_line ht]
  | case3 p t tokens h ht =>
    have hn : NestedWithin (maxNesting - d) [] := nestedWithin_nil.2 (by omega)
    simp [upToEnd, fromEnd, ht, derivesProgram_nil, hn, eq_comm, and_comm]
  | case4 p t tokens h ht labels _ ih =>
    have he : t.kind ≠ .eof := by simp [ht]
    rw [ih, upToEnd_cons he, fromEnd_cons he,
      nestedWithin_cons_other (by simp [ht]) (by simp [ht])]
    simp only [derivesProgram_label ht]
    constructor
    · rintro ⟨rfl, items, hp, hn, rfl⟩
      exact ⟨rfl, _, ⟨items, rfl, hp⟩, hn, rfl⟩
    · rintro ⟨rfl, _, ⟨items, rfl, hp⟩, hn, rfl⟩
      exact ⟨rfl, items, hp, hn, rfl⟩
  | case5 p t tokens h c after d' hp hl he hb =>
    simp only [Parsed.not_gives_failed, false_iff]
    rintro ⟨-, items, hder, hn, -⟩
    obtain ⟨_, s, _, -, -, hs⟩ := hder.parses_statement hn hl hb he
    simp [hp] at hs
  | case6 p t tokens h s after shorter hp statements hl he hb _ ih =>
    obtain ⟨us, heq, hs, hus, -⟩ := derives_of_parseStatement hd ⟨shorter, hp⟩
    rw [ih]
    constructor
    · rintro ⟨rfl, items, hder, hn, rfl⟩
      rw [heq, upToEnd_append hs.ne_eof, fromEnd_append hs.ne_eof, nestedWithin_append,
        hs.openParens_eq, Int.sub_zero]
      exact ⟨rfl, _, .statement allLines_nil hs hder, ⟨hus, hn⟩, rfl⟩
    · rintro ⟨rfl, items, hder, hn, rfl⟩
      -- the derivation starts with the statement that was parsed
      obtain ⟨vs, s', later, rfl, hder, hs'⟩ := hder.parses_statement hn hl hb he
      obtain ⟨rfl, hafter⟩ : s = s' ∧ after = vs ++ fromEnd (t :: tokens) := by
        simpa [hp] using hs'
      rw [heq, upToEnd_append hs.ne_eof, nestedWithin_append, hs.openParens_eq, Int.sub_zero] at hn
      rw [heq, fromEnd_append hs.ne_eof] at hafter ⊢
      obtain rfl : upToEnd after = vs :=
        List.append_cancel_right ((upToEnd_append_fromEnd after).trans hafter)
      exact ⟨rfl, later, hder, hn.2, rfl⟩

theorem ofTokens_eq_ok_iff_gives {tokens : List Token} {p : Program} :
    Program.ofTokens tokens = .ok p ↔ ∃ rest, (parseProgram 0 tokens).Gives p rest := by
  rw [ofTokens_eq_result]
  cases parseProgram 0 tokens <;> simp [Parsed.result]

/-- **The program of a list of tokens** consists of the items that the tokens
    up to the end of the text derive. -/
theorem ofTokens_eq_ok_iff {tokens : List Token} {p : Program} :
    Program.ofTokens tokens = .ok p ↔ ∃ items, DerivesProgram (upToEnd tokens) items ∧
      NestedWithin maxNesting (upToEnd tokens) ∧ p = .ofItems items := by
  rw [ofTokens_eq_ok_iff_gives]
  simp only [parseProgram, parseProgramFrom_gives_iff (Nat.zero_le maxNesting), exists_eq_left,
    Int.natCast_zero, Int.sub_zero, Program.ofItems]

/-- The number tokens of a text can be read. -/
theorem isSome_of_mem_scan {source : String} {t : Token} (h : t ∈ Token.scan source)
    (ht : t.kind = .number) : (Number.ofGrouped? t.text).isSome = true := by
  have hs := spelled_of_mem_scan h
  simp only [Token.Spelled, ht] at hs
  exact isSome_ofGrouped? hs.1 hs.2

/-- **The parser accepts the grammar**, as far as parentheses are not nested
    too deeply: a list of tokens has a program with the given statements iff
    the tokens up to the end of the text derive these statements.  No tokens
    derive two different programs, however deep they are nested; and a number
    in a text can always be read, so that every number token of a text is an
    operand. -/
theorem statements_iff_derivable :
    (∀ (tokens : List Token) (statements : List Statement),
      (∃ p, Program.ofTokens tokens = .ok p ∧ p.statements.toList = statements) ↔
        ∃ items, DerivesProgram (upToEnd tokens) items ∧
          NestedWithin maxNesting (upToEnd tokens) ∧
          items.filterMap Item.statement? = statements) ∧
    (∀ (tokens : List Token) (items items' : List Item),
      DerivesProgram tokens items → DerivesProgram tokens items' → items = items') ∧
    ∀ (source : String), ∀ t ∈ Token.scan source, t.kind = .number →
      (Number.ofGrouped? t.text).isSome = true := by
  refine ⟨fun tokens statements => ?_, fun _ _ _ h h' => h.unique h',
    fun _ _ h ht => isSome_of_mem_scan h ht⟩
  simp only [ofTokens_eq_ok_iff]
  constructor
  · rintro ⟨_, ⟨items, hder, hn, rfl⟩, rfl⟩
    exact ⟨items, hder, hn, (Program.statements_ofItems items).symm⟩
  · rintro ⟨items, hder, hn, rfl⟩
    exact ⟨_, ⟨items, hder, hn, rfl⟩, Program.statements_ofItems items⟩

/-- The tokens of `print = a print (print = a)`, whose first `print` is a
    variable: they derive two statements, which the parser finds, and only
    those; and the number of `print 7` can be read. -/
theorem statements_iff_derivable_keywords :
    (∃ items, DerivesProgram (upToEnd (Token.scan "print = a print (print = a)")) items ∧
      (∃ p, Program.ofTokens (Token.scan "print = a print (print = a)") = .ok p ∧
        p.statements.toList = [.assign (.text "print") (.var (.text "a")),
          .print (.binary (.var (.text "print")) (.text "=") (.var (.text "a")))]) ∧
      ∀ items', DerivesProgram (upToEnd (Token.scan "print = a print (print = a)")) items' →
        items' = items) ∧
    (⟨.number, "7", ⟨1, 7⟩⟩ ∈ Token.scan "print 7" ∧ (Number.ofGrouped? "7").isSome = true) := by
  have hscan : upToEnd (Token.scan "print = a print (print = a)") =
      [⟨.word, "print", ⟨1, 1⟩⟩, ⟨.equals, "=", ⟨1, 7⟩⟩, ⟨.word, "a", ⟨1, 9⟩⟩,
       ⟨.word, "print", ⟨1, 11⟩⟩, ⟨.leftParen, "(", ⟨1, 17⟩⟩, ⟨.word, "print", ⟨1, 18⟩⟩,
       ⟨.equals, "=", ⟨1, 24⟩⟩, ⟨.word, "a", ⟨1, 26⟩⟩, ⟨.rightParen, ")", ⟨1, 27⟩⟩,
       ⟨.line, "\n", ⟨1, 28⟩⟩] := by decide +kernel
  have hder : DerivesProgram (upToEnd (Token.scan "print = a print (print = a)"))
      [.statement (.assign (.text "print") (.var (.text "a"))),
       .statement (.print (.binary (.var (.text "print")) (.text "=") (.var (.text "a"))))] := by
    rw [hscan]
    have ha := Derives.expr (.word (t := ⟨.word, "a", ⟨1, 9⟩⟩) rfl) .nothing
    have hb := Derives.expr (.parens (t := ⟨.leftParen, "(", ⟨1, 17⟩⟩) rfl
      (.expr (.word (t := ⟨.word, "print", ⟨1, 18⟩⟩) rfl)
        (.link (t := ⟨.equals, "=", ⟨1, 24⟩⟩) rfl
          (.word (t := ⟨.word, "a", ⟨1, 26⟩⟩) rfl) .nothing))
      (u := ⟨.rightParen, ")", ⟨1, 27⟩⟩) rfl) .nothing
    refine DerivesProgram.statement allLines_nil
      (.assign (t := ⟨.word, "print", ⟨1, 1⟩⟩) rfl (u := ⟨.equals, "=", ⟨1, 7⟩⟩) rfl ha) ?_
    refine DerivesProgram.statement allLines_nil (.print (t := ⟨.word, "print", ⟨1, 11⟩⟩) rfl hb) ?_
    exact .lines (by simp [AllLines])
  have hn : NestedWithin maxNesting (upToEnd (Token.scan "print = a print (print = a)")) := by
    rw [hscan]
    simp [nestedWithin_cons, nestedWithin_nil, openParens, maxNesting]
  refine ⟨⟨_, hder, (statements_iff_derivable.1 _ _).2 ⟨_, hder, hn, rfl⟩,
    fun _ h => statements_iff_derivable.2.1 _ _ _ h hder⟩, by decide +kernel, ?_⟩
  exact statements_iff_derivable.2.2 "print 7" ⟨.number, "7", ⟨1, 7⟩⟩ (by decide +kernel) rfl

end GotoBasic
