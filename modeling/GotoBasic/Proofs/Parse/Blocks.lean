/-
  Programs that consist of blocks of lines.

  * `Program.append p q`: the statements of `p` and then those of `q`; labels of
    `q` mark the same statements as before, and override those of `p`;
  * `ofTokens_append`: the program of two blocks of tokens is that of the first
    followed by that of the second, and the first error counts;
  * `parse_append`: so is the program of two blocks of lines;
  * `parse_blocks`: the same, case by case.
-/
import GotoBasic.Proofs.Bindings
import GotoBasic.Proofs.Parse.Setting

namespace GotoBasic

/-! ## One program after another -/

namespace Bindings

/-- The bindings with every number increased. -/
def shift (n : Nat) (bs : Bindings String Int) : Bindings String Int :=
  bs.map fun b => (b.1, b.2 + n)

theorem shift_put (n : Nat) (bs : Bindings String Int) (name : String) (i : Int) :
    shift n (bs.put name i) = (shift n bs).put name (i + n) := by
  induction bs with
  | nil => rfl
  | cons b bs ih =>
    simp only [shift] at ih
    by_cases hb : b.1 = name <;> simp [shift, put, hb, ih]

theorem keys_shift (n : Nat) (bs : Bindings String Int) : (shift n bs).keys = bs.keys := by
  simp [keys, shift]

end Bindings

namespace Program

/-- The statements and labels of `p`, followed by those of `q`. -/
def append (p q : Program) : Program :=
  ⟨p.statements ++ q.statements, p.labels.override (q.labels.shift p.statements.size)⟩

theorem append_empty (p : Program) : p.append .empty = p := by
  simp [append, empty, Bindings.shift, Bindings.override]

theorem nodup_add {q : Program} (h : q.labels.keys.Nodup) (item : Item) :
    (q.add item).labels.keys.Nodup := by
  cases item with
  | label => exact Bindings.nodup_put h
  | statement => exact h

theorem append_add (p : Program) {q : Program} (h : q.labels.keys.Nodup) (item : Item) :
    (p.append q).add item = p.append (q.add item) := by
  cases item with
  | label name =>
    have hshift : (q.labels.shift p.statements.size).keys.Nodup := by rwa [Bindings.keys_shift]
    simp only [add, append, Bindings.shift_put, Bindings.override_put hshift, Array.size_append]
    rw [Int.natCast_add, Int.add_comm]
  | statement s => simp [add, append, Array.push_append]

end Program

/-- The parse with another result. -/
def Parsed.map {α β : Type} {bound : Nat} (f : α → β) : Parsed α bound → Parsed β bound
  | done a rest h => done (f a) rest h
  | failed c rest d => failed c rest d

/-- The statements and labels that were found before do not matter. -/
theorem parseProgramFrom_append {bound d : Nat} (p : Program) {q : Program} {ts : List Token} {h}
    (hq : q.labels.keys.Nodup) : parseProgramFrom bound d (p.append q) ts h =
      (parseProgramFrom bound d q ts h).map p.append := by
  fun_induction parseProgramFrom bound d q ts h with
  | case1 q h => rw [parseProgramFrom]; rfl
  | case2 q t ts h ht _ ih =>
    rw [parseProgramFrom]
    simp only [ht]
    exact ih hq
  | case3 q t ts h ht =>
    rw [parseProgramFrom]
    simp only [ht]
    rfl
  | case4 q t ts h ht labels _ ih =>
    rw [parseProgramFrom]
    simp only [ht]
    show parseProgramFrom bound d ((p.append q).add (.label t.text)) ts _ = _
    rw [p.append_add hq]
    exact ih (Program.nodup_add hq (.label t.text))
  | case5 q t ts h c rest e hp hl he hb =>
    rw [parseProgramFrom_statement hl he hb, hp]
    rfl
  | case6 q t ts h s rest shorter hp statements hl he hb _ ih =>
    rw [parseProgramFrom_statement hl he hb, hp]
    show parseProgramFrom bound d ((p.append q).add (.statement s)) rest _ = _
    rw [p.append_add hq]
    exact ih hq

/-! ## Blocks of tokens -/

theorem Parsed.result_map {α β : Type} {bound : Nat} (f : α → β) (last : Token)
    (p : Parsed α bound) : (p.map f).result last = (p.result last).map f := by
  cases p <;> rfl

/-- The bound on the tokens that are left does not matter. -/
theorem result_parseProgramFrom {bound bound' : Nat} {p : Program} {ts : List Token} {h h'}
    (last : Token) : (parseProgramFrom bound 0 p ts h).result last =
      (parseProgramFrom bound' 0 p ts h').result last := by
  have hts : (⟨id, []⟩ : Setting).tokens ts = ts := by simp [Setting.tokens, Token.relocate_id]
  have hgo : (⟨id, []⟩ : Setting).GoesOn 0 (parseProgramFrom bound' 0 p ts h')
      (parseProgramFrom bound 0 p ((⟨id, []⟩ : Setting).tokens ts) (by rwa [hts])) :=
    Setting.goesOn_parseProgramFrom (Nat.zero_le maxNesting) (.inl rfl)
  have heq := hgo.result_eq rfl last
  simp only [hts, Token.relocate_id, ParseError.relocate_id, id] at heq
  rw [heq]
  cases (parseProgramFrom bound' 0 p ts h').result last <;> rfl

theorem result_parseProgramFrom_after {bound : Nat} {p : Program} {ts : List Token} {h}
    (last : Token) : (parseProgramFrom bound 0 p ts h).result last =
      ((parseProgram 0 ts).result last).map p.append := by
  have hempty : Program.empty.labels.keys.Nodup := List.nodup_nil
  calc (parseProgramFrom bound 0 p ts h).result last
      = (parseProgramFrom bound 0 (p.append .empty) ts h).result last := by
        rw [Program.append_empty]
    _ = ((parseProgramFrom bound 0 .empty ts h).result last).map p.append := by
        rw [parseProgramFrom_append p hempty, Parsed.result_map]
    _ = ((parseProgram 0 ts).result last).map p.append := by
        rw [parseProgram, result_parseProgramFrom]

theorem Token.endAfter_append (ts : List Token) {us : List Token} (h : us ≠ []) :
    Token.endAfter (ts ++ us) = Token.endAfter us := by
  have hlast := List.getLast?_eq_some_getLast h
  simp [Token.endAfter, List.getLast?_append, hlast]

/-- **The program of two blocks of tokens** is that of the first, followed by
    that of the second. -/
theorem ofTokens_append {ts us : List Token} (hl : ∀ t ∈ ts.getLast?, t.kind = .line)
    (he : ∀ t ∈ ts, t.kind ≠ .eof) (hne : us ≠ []) : Program.ofTokens (ts ++ us) =
      (Program.ofTokens ts).bind fun p => (Program.ofTokens us).map p.append := by
  have htokens : ∀ vs, (⟨id, us⟩ : Setting).tokens vs = vs ++ us := by
    simp [Setting.tokens, Token.relocate_id]
  have hgo : (⟨id, us⟩ : Setting).GoesOn 0 (parseProgram 0 ts) _ :=
    Setting.goesOn_parseProgram (.inr hl)
  rw [ofTokens_eq_result (ts ++ us), ofTokens_eq_result ts, ← htokens]
  generalize hp : parseProgram 0 ts = p at hgo ⊢
  generalize parseProgram 0 ((⟨id, us⟩ : Setting).tokens ts) = q at hgo ⊢
  cases hgo with
  | @done p rest h h' hend =>
    -- nothing is left of the first block
    obtain ⟨rfl, -⟩ := (parseProgramFrom_gives_iff (Nat.zero_le maxNesting)).1 ⟨h, hp⟩
    have hrest : fromEnd ts = [] := List.dropWhile_eq_nil_iff.2 (by simpa using he)
    have hus : (⟨id, us⟩ : Setting).tokens (fromEnd ts) = us := by rw [htokens, hrest]; rfl
    simp only [hus, htokens, Token.endAfter_append ts hne]
    rw [result_parseProgramFrom_after, ← ofTokens_eq_result]
    rfl
  | @failed c rest e hr =>
    obtain hnil | ⟨t, ht, -⟩ := hr
    · exact absurd hnil hne
    · obtain ⟨u, rest, rfl⟩ := List.exists_cons_of_ne_nil (List.ne_nil_of_mem ht)
      cases c <;> rfl

/-! ## Blocks of lines -/

theorem ofTokens_eof (p : Place) : Program.ofTokens [⟨.eof, "", p⟩] = .ok .empty := by
  rw [ofTokens_eq_result, parseProgram, parseProgramFrom_of_end (by simp)]
  rfl

/-- **The program of two blocks of lines** is that of the first, followed by
    that of the second. -/
theorem parse_append {s₁ : String} (h : WholeLines s₁.toList) (ho : leavesStringOpen s₁ = false)
    (s₂ : String) : Program.parse (s₁ ++ s₂) = (Program.parse s₁).bind fun p =>
      ((Program.parse s₂).mapError (.relocate (.down (s₁.toList.count '\n')))).map p.append := by
  obtain ⟨ts, hl, he, ⟨p, hscan₁⟩, hscan⟩ := scan_append h ho s₂
  have hne : Token.scan s₂ ≠ [] := by rw [scan_eq_read]; simp
  have hp₁ : Program.parse s₁ = Program.ofTokens ts := by
    rw [Program.parse, hscan₁, ofTokens_append hl he (by simp), ofTokens_eof]
    cases Program.ofTokens ts with
    | error e => rfl
    | ok p => exact congrArg Except.ok p.append_empty
  rw [hp₁, Program.parse, hscan, ofTokens_append hl he (by simpa using hne),
    ofTokens_relocate _ hne]
  rfl

/-- **Blocks of lines are parsed one by one.**  Behind whole lines that leave no
    string open, a text adds its statements and its labels, which override
    those before it; its errors are found so many lines down.  An error in the
    first block counts. -/
theorem parse_blocks (s₁ s₂ : String) (h : WholeLines s₁.toList)
    (ho : leavesStringOpen s₁ = false) :
    (∀ p₁ p₂, Program.parse s₁ = .ok p₁ → Program.parse s₂ = .ok p₂ →
      ∃ p, Program.parse (s₁ ++ s₂) = .ok p ∧ p.statements = p₁.statements ++ p₂.statements ∧
        p.labels = p₁.labels.override (p₂.labels.shift p₁.statements.size)) ∧
    (∀ p₁ e, Program.parse s₁ = .ok p₁ → Program.parse s₂ = .error e →
      Program.parse (s₁ ++ s₂) = .error (e.relocate (.down (s₁.toList.count '\n')))) ∧
    ∀ e, Program.parse s₁ = .error e → Program.parse (s₁ ++ s₂) = .error e := by
  rw [parse_append h ho]
  refine ⟨fun p₁ p₂ h₁ h₂ => ?_, fun p₁ e h₁ h₂ => ?_, fun e h₁ => ?_⟩
  · rw [h₁, h₂]
    exact ⟨p₁.append p₂, rfl, rfl, rfl⟩
  · rw [h₁, h₂]
    rfl
  · rw [h₁]
    rfl

theorem exists_parse_of_summary {source : String} {n : Nat} {labels : Bindings String Int}
    (h : (match Program.parse source with
      | .ok p => some (p.statements.size, p.labels)
      | .error _ => none) = some (n, labels)) :
    ∃ p, Program.parse source = .ok p ∧ p.statements.size = n ∧ p.labels = labels := by
  split at h
  · rename_i p hp
    cases h
    exact ⟨p, hp, rfl, rfl⟩
  · cases h

theorem exists_parse_of_message {source message : String}
    (h : (match Program.parse source with
      | .ok _ => none
      | .error e => some e.message) = some message) :
    ∃ e, Program.parse source = .error e ∧ e.message = message := by
  split at h
  · cases h
  · rename_i e he
    cases h
    exact ⟨e, he, rfl⟩

/-- A block whose label the second block sets anew, one whose error is found
    two lines down, and one that has an error itself. -/
theorem parse_blocks_loop :
    (∃ p₁ p₂ p, Program.parse "goto x\n:x\n" = .ok p₁ ∧ Program.parse "y = 1 :x" = .ok p₂ ∧
      Program.parse ("goto x\n:x\n" ++ "y = 1 :x") = .ok p ∧
      p.statements = p₁.statements ++ p₂.statements ∧ p.labels = [("x", 2)]) ∧
    (∃ e, Program.parse "print (1" = .error e ∧
      Program.parse ("goto x\n:x\n" ++ "print (1") = .error (e.relocate (.down 2)) ∧
      e.message = "Line 1:9 - Unmatched '(' opened at 1:7, found line break" ∧
      (e.relocate (.down 2)).message =
        "Line 3:9 - Unmatched '(' opened at 3:7, found line break") ∧
    ∃ e, Program.parse "print )\n" = .error e ∧
      Program.parse ("print )\n" ++ "goto") = .error e := by
  have h : WholeLines "goto x\n:x\n".toList := .inr (by decide)
  have ho : leavesStringOpen "goto x\n:x\n" = false := by decide +kernel
  obtain ⟨p₁, hp₁, hn₁, hl₁⟩ : ∃ p, Program.parse "goto x\n:x\n" = .ok p ∧
      p.statements.size = 1 ∧ p.labels = [("x", 1)] := exists_parse_of_summary (by decide +kernel)
  obtain ⟨p₂, hp₂, hn₂, hl₂⟩ : ∃ p, Program.parse "y = 1 :x" = .ok p ∧
      p.statements.size = 1 ∧ p.labels = [("x", 1)] := exists_parse_of_summary (by decide +kernel)
  obtain ⟨e, he, hm⟩ : ∃ e, Program.parse "print (1" = .error e ∧
      e.message = "Line 1:9 - Unmatched '(' opened at 1:7, found line break" :=
    exists_parse_of_message (by decide +kernel)
  obtain ⟨e', he', -⟩ : ∃ e, Program.parse "print )\n" = .error e ∧
      e.message = "Line 1:7 - Invalid expression: found RIGHT_PAREN(')')" :=
    exists_parse_of_message (by decide +kernel)
  have hdown := (parse_blocks _ _ h ho).2.1 p₁ e hp₁ he
  refine ⟨?_, ⟨e, he, hdown, hm, ?_⟩,
    e', he', (parse_blocks "print )\n" "goto" (.inr (by decide)) (by decide +kernel)).2.2 e' he'⟩
  · obtain ⟨p, hp, hstatements, hlabels⟩ := (parse_blocks _ _ h ho).1 p₁ p₂ hp₁ hp₂
    refine ⟨p₁, p₂, p, hp₁, hp₂, hp, hstatements, ?_⟩
    rw [hlabels, hl₁, hl₂, hn₁]
    decide
  · obtain ⟨e'', he'', hm''⟩ : ∃ e, Program.parse ("goto x\n:x\n" ++ "print (1") = .error e ∧
        e.message = "Line 3:9 - Unmatched '(' opened at 3:7, found line break" :=
      exists_parse_of_message (by decide +kernel)
    cases hdown.symm.trans he''
    exact hm''

end GotoBasic
