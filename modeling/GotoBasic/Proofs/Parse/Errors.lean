/-
  Where parsing a text fails.

  * `stops_of_parseStatement`, `stops_of_parseProgramFrom`: the parsers of
    statements and programs stop at the first token that no statement, or
    program, goes on with, and look no further than one token behind it;
  * `viable_prefix_of_error`: so an error in a text is about the token at the
    cursor, the tokens passed are the beginning of a program, and the error
    does not depend on what comes later.
-/
import GotoBasic.Proofs.Parse.Labels
import GotoBasic.Proofs.Parse.Stops

namespace GotoBasic

/-! ## Single tokens, and what stands after `if` -/

section
variable {d : Nat} {kind : TokenKind} {word : String} {tokens rest : List Token} {c : Complaint}

theorem parseToken_fails_iff : (parseToken kind d tokens).Fails c rest ↔
    (∀ t ∈ tokens.head?, t.kind ≠ kind) ∧ .expected kind = c ∧ tokens = rest := by
  cases tokens with
  | nil => simp [parseToken]
  | cons t tokens =>
    rw [parseToken]
    split <;> simp_all

theorem parseWord_fails_iff : (parseWord word d tokens).Fails c rest ↔
    (∀ t ∈ tokens.head?, t.isWord word = false) ∧ .expectedWord word = c ∧ tokens = rest := by
  cases tokens with
  | nil => simp [parseWord]
  | cons t tokens =>
    rw [parseWord]
    split <;> simp_all

theorem stops_of_parseToken (h : (parseToken kind d tokens).Fails c rest) :
    Stops (fun ts => ∃ t, ts = [t] ∧ t.kind = kind) (fun ts => (parseToken kind d ts).Fails)
      tokens c rest := by
  obtain ⟨hne, rfl, rfl⟩ := parseToken_fails_iff.1 h
  exact .here ⟨.of kind "x", rfl, rfl⟩
    fun hsame => parseToken_fails_iff.2 ⟨by rwa [hsame.1], rfl, rfl⟩

theorem stops_of_parseWord (h : (parseWord word d tokens).Fails c rest) :
    Stops (fun ts => ∃ t, ts = [t] ∧ t.isWord word = true) (fun ts => (parseWord word d ts).Fails)
      tokens c rest := by
  obtain ⟨hne, rfl, rfl⟩ := parseWord_fails_iff.1 h
  exact .here ⟨.of .word word, rfl, Token.isWord_iff.2 ⟨rfl, rfl⟩⟩
    fun hsame => parseWord_fails_iff.2 ⟨by rwa [hsame.1], rfl, rfl⟩

theorem parseIfThen_fails_iff : (parseIfThen d tokens).Fails c rest ↔
    (parseExpr d tokens).Fails c rest ∨ ∃ e ts, (parseExpr d tokens).Gives e ts ∧
      ((parseWord "then" d ts).Fails c rest ∨
        ∃ u us, ts = u :: us ∧ u.isWord "then" = true ∧ (parseToken .word d us).Fails c rest) := by
  simp only [parseIfThen, Parsed.fails_andThen, Parsed.fails_widen, Parsed.gives_widen,
    Parsed.not_fails_done, parseWord_gives_iff]
  constructor
  · rintro (he | ⟨e, ts, -, he, hw | ⟨u, us, -, ⟨rfl, hu⟩, hl | ⟨_, _, _, _, hf⟩⟩⟩)
    · exact .inl he
    · exact .inr ⟨e, ts, he, .inl hw⟩
    · exact .inr ⟨e, _, he, .inr ⟨u, us, rfl, hu, hl⟩⟩
    · exact hf.elim
  · rintro (he | ⟨e, ts, he, hw | ⟨u, us, rfl, hu, hl⟩⟩)
    · exact .inl he
    · exact .inr ⟨e, ts, he.length_lt, he, .inl hw⟩
    · have hlt := he.length_lt
      exact .inr ⟨e, _, hlt, he, .inr ⟨u, us, Token.length_lt_of_cons hlt, ⟨rfl, hu⟩, .inl hl⟩⟩

/-- The tokens are a condition, `then` and a label. -/
def IsIfThen (d : Nat) (ts : List Token) : Prop :=
  ∃ us u v, ts = us ++ [u, v] ∧ IsPhrase .expr d us ∧ u.isWord "then" = true ∧ v.kind = .word

theorem stops_of_parseIfThen (hd : d ≤ maxNesting) (hc : c.Legible)
    (h : (parseIfThen d tokens).Fails c rest) :
    Stops (IsIfThen d) (fun ts => (parseIfThen d ts).Fails) tokens c rest := by
  rcases parseIfThen_fails_iff.1 h with he | ⟨e, ts, he, hw | ⟨u, us, rfl, hu, hl⟩⟩
  · refine (stops_of_parseExpr hd hc he).within [] (fun hts => ?_)
      fun _ hr => parseIfThen_fails_iff.2 (.inl hr)
    exact ⟨[.of .word "then", .of .word "x"], _, _, _, rfl, hts, rfl, rfl⟩
  · obtain ⟨vs, rfl, hvs, hn, hend⟩ := begins_of_parseExpr hd he
    refine (stops_of_parseWord hw).within vs ?_ fun hhead hr => ?_
    · rintro _ ⟨u, rfl, hu⟩
      exact ⟨[.of .word "x"], vs, u, _, rfl, hvs.isPhrase hn, hu, rfl⟩
    · have hp := hvs.parses hn (EndsChain.congr hend hhead)
      exact parseIfThen_fails_iff.2 (.inr ⟨e, _, hp, .inl hr⟩)
  · obtain ⟨vs, rfl, hvs, hn, hend⟩ := begins_of_parseExpr hd he
    rw [← List.singleton_append, ← List.append_assoc]
    refine (stops_of_parseToken hl).behind (vs ++ [u]) ?_ fun {us' _} _ hr => ?_
    · rintro _ ⟨v, rfl, hv⟩
      exact ⟨vs, u, v, by simp, hvs.isPhrase hn, hu, hv⟩
    · have hp : Parses .expr d (vs ++ u :: us') e (u :: us') :=
        hvs.parses hn (endsChain_of_word (Token.isWord_iff.1 hu).1)
      rw [List.append_assoc]
      exact parseIfThen_fails_iff.2 (.inr ⟨e, _, hp, .inr ⟨u, us', rfl, hu, hr⟩⟩)

end

/-! ## Statements -/

/-- The tokens are a whole statement, `d` parentheses being open. -/
def IsStatement (d : Nat) (ts : List Token) : Prop :=
  ∃ s, DerivesStatement ts s ∧ NestedWithin (maxNesting - d) ts

section
variable {d : Nat} {t u : Token} {ts tokens rest : List Token} {c : Complaint}

theorem IsPhrase.exists_derives (h : IsPhrase .expr d ts) :
    ∃ e, Derives .expr ts e ∧ NestedWithin (maxNesting - d) ts := by
  obtain ⟨e, us, rfl, hus, hn, -⟩ := h
  rw [List.append_nil]
  exact ⟨e, hus, hn⟩

theorem IsStatement.assign (ht : t.kind = .word) (hu : u.kind = .equals)
    (h : IsPhrase .expr d ts) : IsStatement d (t :: u :: ts) := by
  obtain ⟨e, hts, hn⟩ := h.exists_derives
  refine ⟨_, .assign ht hu hts, ?_⟩
  rwa [nestedWithin_cons_word ht, nestedWithin_cons_other (by simp [hu]) (by simp [hu])]

theorem IsStatement.print (ht : t.isWord "print" = true) (h : IsPhrase .expr d ts) :
    IsStatement d (t :: ts) := by
  obtain ⟨e, hts, hn⟩ := h.exists_derives
  exact ⟨_, .print ht hts, (nestedWithin_cons_word (Token.isWord_iff.1 ht).1).2 hn⟩

theorem IsStatement.goto (hd : d ≤ maxNesting) (ht : t.isWord "goto" = true)
    (hu : u.kind = .word) : IsStatement d [t, u] := by
  refine ⟨_, .goto ht hu, ?_⟩
  rw [nestedWithin_cons_word (Token.isWord_iff.1 ht).1, nestedWithin_cons_word hu, nestedWithin_nil]
  omega

theorem IsStatement.ifThen (ht : t.isWord "if" = true) (h : IsIfThen d ts) :
    IsStatement d (t :: ts) := by
  obtain ⟨us, u, v, rfl, hus, hu, hv⟩ := h
  obtain ⟨e, hus, hn⟩ := hus.exists_derives
  refine ⟨_, .ifThen ht hus hu hv, ?_⟩
  rw [nestedWithin_cons_word (Token.isWord_iff.1 ht).1, nestedWithin_append, hus.openParens_eq,
    Int.sub_zero, nestedWithin_cons_word (Token.isWord_iff.1 hu).1, nestedWithin_cons_word hv,
    nestedWithin_nil]
  exact ⟨hn, hn.nonneg⟩

theorem startsWithEquals_congr (h : ts.head? = tokens.head?) :
    startsWithEquals ts = startsWithEquals tokens := by
  cases ts <;> cases tokens <;> simp_all [startsWithEquals]

theorem fails_assign_iff (ht : t.kind = .word) (hu : u.kind = .equals) :
    (parseStatement d (t :: u :: tokens)).Fails c rest ↔ (parseExpr d tokens).Fails c rest := by
  have heq : startsWithEquals (u :: tokens) = true := by simpa [startsWithEquals] using hu
  rw [parseStatement, if_pos ⟨ht, heq⟩]
  exact Parsed.fails_andThen_done.trans Parsed.fails_widen

theorem fails_print_iff (ht : t.isWord "print" = true) (hne : startsWithEquals tokens = false) :
    (parseStatement d (t :: tokens)).Fails c rest ↔ (parseExpr d tokens).Fails c rest := by
  rw [parseStatement, if_neg (by simp [hne]), if_pos ht]
  exact Parsed.fails_andThen_done.trans Parsed.fails_widen

theorem fails_goto_iff (ht : t.isWord "goto" = true) (hne : startsWithEquals tokens = false) :
    (parseStatement d (t :: tokens)).Fails c rest ↔ (parseToken .word d tokens).Fails c rest := by
  have hprint : t.isWord "print" = false := Token.isWord_of_ne ht (by decide)
  rw [parseStatement, if_neg (by simp [hne]), if_neg (by simp [hprint]), if_pos ht]
  exact Parsed.fails_andThen_done.trans Parsed.fails_widen

theorem fails_ifThen_iff (ht : t.isWord "if" = true) (hne : startsWithEquals tokens = false) :
    (parseStatement d (t :: tokens)).Fails c rest ↔ (parseIfThen d tokens).Fails c rest := by
  have hprint : t.isWord "print" = false := Token.isWord_of_ne ht (by decide)
  have hgoto : t.isWord "goto" = false := Token.isWord_of_ne ht (by decide)
  rw [parseStatement, if_neg (by simp [hne]), if_neg (by simp [hprint]), if_neg (by simp [hgoto]),
    if_pos ht, Parsed.fails_widen]

theorem fails_other_iff (hne : t.kind = .word → startsWithEquals tokens = false)
    (hprint : ¬ t.isWord "print" = true) (hgoto : ¬ t.isWord "goto" = true)
    (hif : ¬ t.isWord "if" = true) :
    (parseStatement d (t :: tokens)).Fails c rest ↔ .unexpected = c ∧ t :: tokens = rest := by
  have hassign : ¬ (t.kind = .word ∧ startsWithEquals tokens = true) := by simpa using hne
  rw [parseStatement, if_neg hassign, if_neg hprint, if_neg hgoto, if_neg hif, Parsed.fails_failed]

/-- **The parser of statements stops** at the first token that no statement goes
    on with. -/
theorem stops_of_parseStatement (hd : d ≤ maxNesting) (hc : c.Legible)
    (h : (parseStatement d tokens).Fails c rest) :
    Stops (IsStatement d) (fun ts => (parseStatement d ts).Fails) tokens c rest := by
  have hstatement : IsStatement d [.of .word "goto", .of .word "x"] := .goto hd rfl rfl
  cases tokens with
  | nil =>
    obtain ⟨rfl, rfl⟩ := Parsed.fails_failed.1 h
    refine .here hstatement fun hsame => ?_
    obtain rfl := List.head?_eq_none_iff.1 hsame.1
    exact h
  | cons t tokens =>
    by_cases hassign : t.kind = .word ∧ startsWithEquals tokens = true
    · cases tokens with
      | nil => simp [startsWithEquals] at hassign
      | cons u tokens =>
        obtain ⟨ht, hu⟩ : t.kind = .word ∧ u.kind = .equals := by
          simpa [startsWithEquals] using hassign
        exact (stops_of_parseExpr hd hc ((fails_assign_iff ht hu).1 h)).behind [t, u]
          (.assign ht hu) fun _ hr => (fails_assign_iff ht hu).2 hr
    -- one more token tells that this is no assignment
    have hne : t.kind = .word → startsWithEquals tokens = false := by simpa using hassign
    by_cases hprint : t.isWord "print" = true
    · have hne := hne (Token.isWord_iff.1 hprint).1
      refine (stops_of_parseExpr hd hc ((fails_print_iff hprint hne).1 h)).behind [t]
        (.print hprint) fun hhead hr => ?_
      exact (fails_print_iff hprint ((startsWithEquals_congr hhead).trans hne)).2 hr
    by_cases hgoto : t.isWord "goto" = true
    · have hne := hne (Token.isWord_iff.1 hgoto).1
      refine (stops_of_parseToken ((fails_goto_iff hgoto hne).1 h)).behind [t] ?_
        fun hhead hr => ?_
      · rintro _ ⟨u, rfl, hu⟩
        exact .goto hd hgoto hu
      · exact (fails_goto_iff hgoto ((startsWithEquals_congr hhead).trans hne)).2 hr
    by_cases hif : t.isWord "if" = true
    · have hne := hne (Token.isWord_iff.1 hif).1
      refine (stops_of_parseIfThen hd hc ((fails_ifThen_iff hif hne).1 h)).behind [t]
        (.ifThen hif) fun hhead hr => ?_
      exact (fails_ifThen_iff hif ((startsWithEquals_congr hhead).trans hne)).2 hr
    obtain ⟨rfl, rfl⟩ := (fails_other_iff hne hprint hgoto hif).1 h
    refine .here hstatement fun hsame => ?_
    obtain ⟨us, rfl⟩ := List.head?_eq_some_iff.1 hsame.1
    have hne' : t.kind = .word → startsWithEquals us = false :=
      fun hk => (startsWithEquals_congr (hsame.2 t rfl hk)).trans (hne hk)
    exact (fails_other_iff hne' hprint hgoto hif).2 ⟨rfl, rfl⟩

end

/-! ## Programs -/

theorem Statement.EndsBefore.congr {s : Statement} {ts us : List Token} (h : s.EndsBefore ts)
    (heq : us.head? = ts.head?) : s.EndsBefore us := by
  cases s <;> first | exact EndsChain.congr h heq | trivial

/-- The tokens are a whole program, `d` parentheses being open. -/
def IsProgram (d : Nat) (ts : List Token) : Prop :=
  ∃ items, DerivesProgram ts items ∧ NestedWithin (maxNesting - d) ts

/-- The loop over a program fails, whatever it has found before. -/
def RejectsProgram (d : Nat) (tokens : List Token) (c : Complaint) (rest : List Token) : Prop :=
  ∀ bound p h, (parseProgramFrom bound d p tokens h).Fails c rest

section
variable {d : Nat} {t : Token} {ts us tokens rest : List Token} {c : Complaint} {s : Statement}

theorem IsStatement.isProgram (h : IsStatement d ts) : IsProgram d ts := by
  obtain ⟨s, hs, hn⟩ := h
  have hder := DerivesProgram.statement allLines_nil hs (.lines allLines_nil)
  rw [List.nil_append, List.append_nil] at hder
  exact ⟨_, hder, hn⟩

theorem IsProgram.statement (hs : DerivesStatement ts s) (hn : NestedWithin (maxNesting - d) ts)
    (h : IsProgram d us) : IsProgram d (ts ++ us) := by
  obtain ⟨items, hder, hus⟩ := h
  refine ⟨_, .statement allLines_nil hs hder, ?_⟩
  rw [nestedWithin_append, hs.openParens_eq, Int.sub_zero]
  exact ⟨hn, hus⟩

theorem IsProgram.line (ht : t.kind = .line) (h : IsProgram d ts) : IsProgram d (t :: ts) := by
  obtain ⟨items, hder, hn⟩ := h
  exact ⟨items, (derivesProgram_line ht).2 hder,
    (nestedWithin_cons_other (by simp [ht]) (by simp [ht])).2 hn⟩

theorem IsProgram.label (ht : t.kind = .label) (h : IsProgram d ts) : IsProgram d (t :: ts) := by
  obtain ⟨items, hder, hn⟩ := h
  exact ⟨_, (derivesProgram_label ht).2 ⟨items, rfl, hder⟩,
    (nestedWithin_cons_other (by simp [ht]) (by simp [ht])).2 hn⟩

theorem RejectsProgram.cons (ht : t.kind = .line ∨ t.kind = .label)
    (h : RejectsProgram d tokens c rest) : RejectsProgram d (t :: tokens) c rest := by
  intro bound p shorter
  rw [parseProgramFrom]
  rcases ht with ht | ht <;> simp only [ht] <;> exact h _ _ _

theorem RejectsProgram.here (hl : t.kind ≠ .line) (he : t.kind ≠ .eof) (hb : t.kind ≠ .label)
    (h : (parseStatement d (t :: tokens)).Fails c rest) :
    RejectsProgram d (t :: tokens) c rest := by
  intro bound p shorter
  obtain ⟨_, h⟩ := h
  rw [parseProgramFrom_statement hl he hb, h]
  exact ⟨_, rfl⟩

theorem RejectsProgram.statement (hs : DerivesStatement ts s)
    (hn : NestedWithin (maxNesting - d) ts) (hend : s.EndsBefore tokens)
    (h : RejectsProgram d tokens c rest) : RejectsProgram d (ts ++ tokens) c rest := by
  obtain ⟨t, ts, rfl, ht⟩ := hs.starts
  have hp : (parseStatement d (t :: (ts ++ tokens))).Gives s tokens := hs.parses hn hend
  obtain ⟨_, hp⟩ := hp
  intro bound p shorter
  show (parseProgramFrom bound d p (t :: (ts ++ tokens)) shorter).Fails c rest
  rw [parseProgramFrom_statement (by simp [ht]) (by simp [ht]) (by simp [ht]), hp]
  exact h _ _ _

/-- **The loop over a program stops** at the first token that no program goes on
    with. -/
theorem stops_of_parseProgramFrom {bound : Nat} {p : Program} {h} (hd : d ≤ maxNesting)
    (hc : c.Legible) (hp : (parseProgramFrom bound d p tokens h).Fails c rest) :
    Stops (IsProgram d) (RejectsProgram d) tokens c rest := by
  fun_induction parseProgramFrom bound d p tokens h with
  | case1 | case3 => simp at hp
  | case2 p t tokens h ht _ ih =>
    exact (ih hp).behind [t] (.line ht) fun _ hr => hr.cons (.inl ht)
  | case4 p t tokens h ht labels _ ih =>
    exact (ih hp).behind [t] (.label ht) fun _ hr => hr.cons (.inr ht)
  | case5 p t tokens h c' after d' hs hl he hb =>
    obtain ⟨rfl, rfl⟩ := Parsed.fails_failed.1 hp
    refine (stops_of_parseStatement hd hc ⟨_, hs⟩).behind [] (·.isProgram) fun hhead hr => ?_
    obtain ⟨us, rfl⟩ := List.head?_eq_some_iff.1 hhead
    exact .here hl he hb hr
  | case6 p t tokens h s after shorter hs statements hl he hb _ ih =>
    obtain ⟨ts, heq, hts, hn, hend⟩ := derives_of_parseStatement hd ⟨shorter, hs⟩
    rw [heq]
    exact (ih hp).behind ts (.statement hts hn)
      fun hhead hr => hr.statement hts hn (hend.congr hhead)

end

/-! ## Texts -/

section
variable {d : Nat} {t : Token} {front after ts us : List Token} {c : Complaint}

theorem IsProgram.ne_eof (h : IsProgram d ts) : ∀ t ∈ ts, t.kind ≠ .eof := by
  obtain ⟨items, hder, -⟩ := h
  exact hder.ne_eof

/-- A whole program is accepted. -/
theorem IsProgram.exists_ofTokens (h : IsProgram 0 ts) : ∃ p, Program.ofTokens ts = .ok p := by
  obtain ⟨items, hder, hn⟩ := h
  have hup : upToEnd ts = ts := by simpa [upToEnd] using hder.ne_eof
  exact ⟨_, ofTokens_eq_ok_iff.2 ⟨items, by rwa [hup], by simpa [hup] using hn, rfl⟩⟩

/-- A program that is rejected at a token has an error there. -/
theorem RejectsProgram.ofTokens_eq (h : RejectsProgram 0 ts c (t :: us)) :
    Program.ofTokens ts = .error ⟨c, t⟩ := by
  obtain ⟨_, h⟩ := h (ts.length + 1) .empty (Nat.lt_add_one _)
  rw [ofTokens_eq_result, parseProgram, h]
  rfl

/-- What is left of a text goes on to its end. -/
theorem exists_cons_of_scan {source : String} {rest : List Token}
    (h : Token.scan source = front ++ rest) (hfront : ∀ t ∈ front, t.kind ≠ .eof) :
    ∃ t after, rest = t :: after ∧ (after = [] → t.kind = .eof) := by
  obtain ⟨p, hscan⟩ := exists_scan_eq source
  rw [h] at hscan
  cases rest with
  | nil =>
    have hmem : ⟨.eof, "", p⟩ ∈ front := by
      rw [← List.append_nil front, hscan]
      simp
    exact absurd rfl (hfront _ hmem)
  | cons t after =>
    refine ⟨t, after, rfl, ?_⟩
    rintro rfl
    obtain ⟨-, ht⟩ := List.append_inj' hscan rfl
    rw [List.singleton_inj.1 ht]

/-- Two tokens are as far as a parse looks ahead; one is enough where it is no
    word. -/
theorem sameAhead_of_take (h : (t :: after).take 2 <+: us)
    (hlast : after = [] → t.kind ≠ .word) : SameAhead (t :: after) us := by
  obtain ⟨vs, rfl⟩ := h
  cases after with
  | nil =>
    refine ⟨rfl, fun u hu hk => ?_⟩
    obtain rfl : t = u := Option.some.inj hu
    exact absurd hk (hlast rfl)
  | cons u after => exact ⟨rfl, fun _ _ _ => rfl⟩

end

/-- **Errors point at the right place.**  The error in a text is about the token
    at the cursor.  The tokens in front of it are the beginning of a program;
    and every list of tokens that begins in the same way, up to the token
    behind the cursor, has the same error. -/
theorem viable_prefix_of_error {source : String} {e : ParseError}
    (h : Program.parse source = .error e) :
    ∃ cursor, (Cursor.ofTokens (Token.scan source)).program = (.error e, cursor) ∧
      (Failure.parse e).name = "ParseError" ∧
      (Token.scan source)[cursor.position]? = some e.found ∧
      (∃ completion p,
        Program.ofTokens ((Token.scan source).take cursor.position ++ completion) = .ok p) ∧
      ∀ others, (Token.scan source).take (cursor.position + 2) <+: others →
        Program.ofTokens others = .error e := by
  have hname := name_of_parse h
  have hl := legible_parseProgram source
  rw [Program.parse, ofTokens_eq_result] at h
  cases hp : parseProgram 0 (Token.scan source) with
  | done => rw [hp] at h; cases h
  | failed c rest d =>
    rw [hp] at h hl
    obtain ⟨front, htokens, ⟨more, hmore⟩, hsettled⟩ :=
      stops_of_parseProgramFrom (Nat.zero_le maxNesting) hl ⟨d, hp⟩
    obtain ⟨t, after, rfl, hlast⟩ := exists_cons_of_scan htokens
      fun t ht => hmore.ne_eof t (List.mem_append_left more ht)
    cases h
    rw [htokens] at hp ⊢
    refine ⟨_, program_eq_of_failed hp, hname, by simp, ⟨more, ?_⟩, fun others hothers => ?_⟩
    · simpa using hmore.exists_ofTokens
    · rw [List.take_length_add_append] at hothers
      obtain ⟨vs, rfl⟩ := hothers
      have hsame : SameAhead (t :: after) ((t :: after).take 2 ++ vs) :=
        sameAhead_of_take (List.prefix_append _ _) fun hnil => by simp [hlast hnil]
      rw [List.append_assoc]
      exact (hsettled _ hsame).ofTokens_eq

/-- In `if (1 + (x then` two parentheses are open at `then`, the seventh token:
    the six in front of it can be completed, and no token behind `then`
    mends the error. -/
theorem viable_prefix_of_error_unmatched :
    ∃ e, Program.parse "if (1 + (x then" = .error e ∧
      e.message = "Line 1:12 - Unmatched '(' opened at 1:9, found WORD('then')" ∧
      (Token.scan "if (1 + (x then")[6]? = some e.found ∧
      (∃ completion p,
        Program.ofTokens ((Token.scan "if (1 + (x then").take 6 ++ completion) = .ok p) ∧
      ∀ others, (Token.scan "if (1 + (x then").take 8 <+: others →
        Program.ofTokens others = .error e := by
  obtain ⟨e, he, hm⟩ : ∃ e, Program.parse "if (1 + (x then" = .error e ∧
      e.message = "Line 1:12 - Unmatched '(' opened at 1:9, found WORD('then')" :=
    exists_parse_of_message (by decide +kernel)
  obtain ⟨cursor, hcursor, -, hfound, hviable, hsettled⟩ := viable_prefix_of_error he
  have hposition : cursor.position = 6 := by
    have hsix : (Cursor.ofTokens (Token.scan "if (1 + (x then")).program.2.position = 6 := by
      decide +kernel
    rwa [hcursor] at hsix
  rw [hposition] at hfound hviable hsettled
  exact ⟨e, he, hm, hfound, hviable, hsettled⟩

end GotoBasic
