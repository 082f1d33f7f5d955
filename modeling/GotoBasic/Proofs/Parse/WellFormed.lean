/-
  Well-formed programs, and parsed programs are well-formed.

  * `Expr.rightDepth`: how deep right operands are nested;
  * `Expr.WellFormed`, `Statement.WellFormed`: names are words, number literals
    are spelled by digits, text literals hold no quotation mark, signs are those
    of operators, and right operands are not nested too deeply;
  * `Program.WellFormed`: so are all statements, and the labels are distinct
    words that mark places in the program;
  * `Derives.depthWithin`: open parentheses bound that depth;
  * `wellFormed_of_parse`: a program that was parsed from a text is
    well-formed.
-/
import GotoBasic.Proofs.Bindings
import GotoBasic.Proofs.Parse.Proper

namespace GotoBasic

/-- A word. -/
def Atom.IsName : Atom → Prop
  | text s => IsWordSpelling s.toList
  | _ => False

/-- The sign of an operator. -/
def Atom.IsSign : Atom → Prop
  | text s => s ∈ ["=", "+", "-", "*", "/", "<", ">"]
  | _ => False

/-- A number that some digits stand for, or a text that can be quoted. -/
def Value.WellFormed : Value → Prop
  | number x => ∃ digits : String,
      IsDigitSpelling digits.toList ∧ Number.ofGrouped? digits = some x
  | text s => '"' ∉ s.toList
  | stray _ => False

namespace Expr

/-- Well-formed literals and names, joined by operators. -/
def WellFormed : Expr → Prop
  | literal v => v.WellFormed
  | var name => name.IsName
  | binary left sign right => left.WellFormed ∧ sign.IsSign ∧ right.WellFormed
  | stray _ => False

/-- How deep right operands are nested; a chain to the left adds nothing. -/
def rightDepth : Expr → Nat
  | binary left _ right => max left.rightDepth (1 + right.rightDepth)
  | literal _ | var _ | stray _ => 0

/-- A well-formed expression that does not need too many open parentheses. -/
def Parsable (e : Expr) : Prop := e.WellFormed ∧ e.rightDepth ≤ maxNesting + 1

end Expr

/-- A statement of names and parsable expressions. -/
def Statement.WellFormed : Statement → Prop
  | assign name e => name.IsName ∧ e.Parsable
  | print e => e.Parsable
  | goto label => label.IsName
  | ifThen e label => e.Parsable ∧ label.IsName
  | stray _ => False

/-- A program of well-formed statements, with distinct labels that are words
    and mark statements or the end. -/
structure Program.WellFormed (p : Program) : Prop where
  statements : ∀ s ∈ p.statements, s.WellFormed
  names : ∀ name ∈ p.labels.keys, IsWordSpelling name.toList
  places : ∀ l ∈ p.labels, 0 ≤ l.2 ∧ l.2 ≤ p.statements.size
  distinct : p.labels.keys.Nodup

/-! ## Expressions -/

theorem isSign_of_joins {t : Token} (ht : t.joins = true) (hs : t.Spelled) :
    (Atom.text t.text).IsSign := by
  rcases t.kind_of_joins ht with hk | hk
  · have h : t.text ∈ ["+", "-", "*", "/", "<", ">"] := by simpa [Token.Spelled, hk] using hs
    exact List.mem_cons_of_mem _ h
  · have h : t.text = "=" := by simpa [Token.Spelled, hk] using hs
    exact List.mem_cons.2 (.inl h)

theorem isName_of_word {t : Token} (ht : t.kind = .word) (hs : t.Spelled) :
    (Atom.text t.text).IsName := by
  simpa [Atom.IsName, Token.Spelled, ht] using hs

theorem Derives.wellFormed {ts : List Token} {e : Expr} (h : Derives .expr ts e)
    (hs : ∀ t ∈ ts, t.Spelled) : e.WellFormed := by
  refine h.holds (fun ht hk => isName_of_word hk ht) ?_ ?_ ?_ hs (by simp)
  · intro t x ht hk hx
    exact ⟨t.text, by simpa [Token.Spelled, hk] using ht, hx⟩
  · intro t ht hk
    simpa [Expr.WellFormed, Value.WellFormed, Token.Spelled, hk] using ht
  · intro t left right ht hj hl hr
    exact ⟨hl, isSign_of_joins hj ht, hr⟩

/-- The depth that a phrase with at most `n` open parentheses may have. -/
def Phrase.DepthWithin (n : Nat) (e : Expr) : Phrase → Prop
  | atomic => e.rightDepth ≤ n
  | expr => e.rightDepth ≤ n + 1
  | after left => left.rightDepth ≤ n + 1 → e.rightDepth ≤ n + 1

theorem nestedWithin_parens {n : Int} {t u : Token} {ts : List Token} (ht : t.kind = .leftParen)
    (hu : u.kind = .rightParen) (ho : openParens ts = 0) :
    NestedWithin n (t :: (ts ++ [u])) ↔ NestedWithin (n - 1) ts := by
  rw [nestedWithin_cons, openParens_leftParen ht, nestedWithin_append, ho, Int.sub_zero,
    nestedWithin_cons, openParens_rightParen hu, nestedWithin_nil]
  constructor
  · exact fun h => h.2.1
  · intro h
    have := h.nonneg
    exact ⟨by omega, h, by omega, by omega⟩

/-- **Open parentheses bound the depth of right operands.** -/
theorem Derives.depthWithin {ph : Phrase} {ts : List Token} {e : Expr} (h : Derives ph ts e) :
    ∀ {n : Nat}, NestedWithin n ts → ph.DepthWithin n e := by
  induction h with
  | word | number | string => intro n _; exact Nat.zero_le n
  | parens ht hts hu ih =>
    intro n hn
    rw [nestedWithin_parens ht hu hts.openParens_eq] at hn
    have hnonneg := hn.nonneg
    obtain ⟨k, rfl⟩ : ∃ k, n = k + 1 := ⟨n - 1, by omega⟩
    exact ih (by simpa using hn)
  | expr hts _ ih₁ ih₂ =>
    intro n hn
    rw [nestedWithin_append, hts.openParens_eq, Int.sub_zero] at hn
    have h₁ : Expr.rightDepth _ ≤ n := ih₁ hn.1
    exact ih₂ hn.2 (by omega)
  | nothing => intro n _ h; exact h
  | @link t ts us left right e ht hts _ ih₁ ih₂ =>
    intro n hn hl
    rw [nestedWithin_cons_joins ht, nestedWithin_append, hts.openParens_eq, Int.sub_zero] at hn
    have h₁ : right.rightDepth ≤ n := ih₁ hn.1
    refine ih₂ hn.2 ?_
    simp only [Expr.rightDepth]
    omega

/-! ## Tokens -/

/-- Well spelled tokens that have at most `n` parentheses open. -/
structure SpelledWithin (n : Int) (ts : List Token) : Prop where
  spelled : ∀ t ∈ ts, t.Spelled
  nested : NestedWithin n ts

section
variable {n : Int} {t : Token} {ts us : List Token}

theorem spelledWithin_nil : SpelledWithin n [] ↔ 0 ≤ n :=
  ⟨fun h => h.nested.nonneg, fun h => ⟨by simp, nestedWithin_nil.2 h⟩⟩

theorem spelledWithin_cons_other (hl : t.kind ≠ .leftParen) (hr : t.kind ≠ .rightParen) :
    SpelledWithin n (t :: ts) ↔ t.Spelled ∧ SpelledWithin n ts := by
  constructor
  · rintro ⟨hs, hn⟩
    exact ⟨hs t (by simp), fun u hu => hs u (by simp [hu]), (nestedWithin_cons_other hl hr).1 hn⟩
  · rintro ⟨ht, hs, hn⟩
    exact ⟨by simpa [ht] using hs, (nestedWithin_cons_other hl hr).2 hn⟩

theorem spelledWithin_append (ho : openParens ts = 0) :
    SpelledWithin n (ts ++ us) ↔ SpelledWithin n ts ∧ SpelledWithin n us := by
  have hn : NestedWithin n (ts ++ us) ↔ NestedWithin n ts ∧ NestedWithin n us := by
    rw [nestedWithin_append, ho, Int.sub_zero]
  constructor
  · rintro ⟨hs, hnest⟩
    exact ⟨⟨fun t ht => hs t (by simp [ht]), (hn.1 hnest).1⟩,
      fun t ht => hs t (by simp [ht]), (hn.1 hnest).2⟩
  · rintro ⟨⟨hs, hnest⟩, hs', hnest'⟩
    exact ⟨by simpa [or_imp, forall_and] using ⟨hs, hs'⟩, hn.2 ⟨hnest, hnest'⟩⟩

theorem spelledWithin_cons_word (ht : t.kind = .word) :
    SpelledWithin n (t :: ts) ↔ t.Spelled ∧ SpelledWithin n ts :=
  spelledWithin_cons_other (by simp [ht]) (by simp [ht])

theorem spelledWithin_cons_equals (ht : t.kind = .equals) :
    SpelledWithin n (t :: ts) ↔ t.Spelled ∧ SpelledWithin n ts :=
  spelledWithin_cons_other (by simp [ht]) (by simp [ht])

end

/-! ## Statements and programs -/

theorem Derives.parsable {ts : List Token} {e : Expr} (h : Derives .expr ts e)
    (hs : SpelledWithin maxNesting ts) : e.Parsable :=
  ⟨h.wellFormed hs.spelled, h.depthWithin hs.nested⟩

theorem DerivesStatement.wellFormed {ts : List Token} {s : Statement} (h : DerivesStatement ts s)
    (hs : SpelledWithin maxNesting ts) : s.WellFormed := by
  cases h with
  | assign ht hu hts =>
    rw [spelledWithin_cons_word ht, spelledWithin_cons_equals hu] at hs
    exact ⟨isName_of_word ht hs.1, hts.parsable hs.2.2⟩
  | print ht hts =>
    rw [spelledWithin_cons_word (Token.isWord_iff.1 ht).1] at hs
    exact hts.parsable hs.2
  | goto _ hu => exact isName_of_word hu (hs.spelled _ (by simp))
  | ifThen ht hts _ hv =>
    rw [spelledWithin_cons_word (Token.isWord_iff.1 ht).1,
      spelledWithin_append hts.openParens_eq] at hs
    exact ⟨hts.parsable hs.2.1, isName_of_word hv (hs.2.2.spelled _ (by simp))⟩

/-- A well-formed statement, or a label that is a word. -/
def Item.WellFormed : Item → Prop
  | label name => IsWordSpelling name.toList
  | statement s => s.WellFormed

theorem AllLines.openParens_eq {ls : List Token} (h : AllLines ls) : openParens ls = 0 := by
  induction ls with
  | nil => rfl
  | cons l ls ih =>
    obtain ⟨hl, hls⟩ := allLines_cons.1 h
    rw [openParens_cons_other (by simp [hl]) (by simp [hl]), ih hls]

theorem DerivesProgram.wellFormed {ts : List Token} {items : List Item}
    (h : DerivesProgram ts items) :
    SpelledWithin maxNesting ts → ∀ item ∈ items, item.WellFormed := by
  induction h with
  | lines => simp
  | label hls ht _ ih =>
    intro hs
    rw [spelledWithin_append hls.openParens_eq,
      spelledWithin_cons_other (by simp [ht]) (by simp [ht])] at hs
    rintro item hm
    rcases List.mem_cons.1 hm with rfl | hm
    · simpa [Item.WellFormed, Token.Spelled, ht] using hs.2.1
    · exact ih hs.2.2 item hm
  | statement hls hst _ ih =>
    intro hs
    rw [spelledWithin_append hls.openParens_eq, spelledWithin_append hst.openParens_eq] at hs
    rintro item hm
    rcases List.mem_cons.1 hm with rfl | hm
    · exact hst.wellFormed hs.2.1
    · exact ih hs.2.2 item hm

/-- A well-formed item keeps a program well-formed. -/
theorem Program.WellFormed.add {p : Program} (h : p.WellFormed) {item : Item}
    (hi : item.WellFormed) : (p.add item).WellFormed := by
  cases item with
  | label name =>
    refine ⟨h.statements, fun other ho => ?_, fun l hl => ?_, Bindings.nodup_put h.distinct⟩
    · rcases Bindings.mem_keys_put.1 ho with rfl | ho
      · exact hi
      · exact h.names other ho
    · rcases Bindings.mem_put hl with hl | hl
      · exact h.places l hl
      · rw [hl]
        exact ⟨by omega, Int.le_refl _⟩
  | statement s =>
    refine ⟨fun s' hs' => ?_, h.names, fun l hl => ?_, h.distinct⟩
    · rcases Array.mem_push.1 hs' with hs' | rfl
      · exact h.statements s' hs'
      · exact hi
    · have := h.places l hl
      simp only [Program.add, Array.size_push]
      omega

theorem Program.wellFormed_empty : Program.empty.WellFormed :=
  ⟨by simp [empty], by simp [empty], by simp [empty], by simp [empty]⟩

theorem Program.wellFormed_foldl_add {items : List Item} {p : Program} (h : p.WellFormed)
    (hi : ∀ item ∈ items, item.WellFormed) : (items.foldl Program.add p).WellFormed := by
  induction items generalizing p with
  | nil => exact h
  | cons item items ih =>
    exact ih (h.add (hi item (by simp))) fun i hm => hi i (by simp [hm])

/-- **A parsed program is well-formed.** -/
theorem wellFormed_of_parse {source : String} {p : Program} (h : Program.parse source = .ok p) :
    p.WellFormed := by
  obtain ⟨items, hder, hn, rfl⟩ := ofTokens_eq_ok_iff.1 h
  have hs : ∀ t ∈ upToEnd (Token.scan source), t.Spelled :=
    fun t ht => spelled_of_mem_scan (List.takeWhile_subset _ ht)
  exact Program.wellFormed_foldl_add Program.wellFormed_empty (hder.wellFormed ⟨hs, hn⟩)

end GotoBasic
