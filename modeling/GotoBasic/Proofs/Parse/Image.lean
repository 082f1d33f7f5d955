/-
  The programs that texts have are the well-formed ones.

  * `Expr.WellFormed.exists_derives`, `Statement.WellFormed.exists_derives`:
    well-formed expressions and statements are in the grammar;
  * `exists_parse_of_items`: well-formed items are those of a text;
  * `Program.WellFormed.exists_items`: a well-formed program consists of
    well-formed items, each label again behind every statement that it is not
    in front of;
  * `exists_parse_iff_wellFormed`: a program is that of a text iff it is
    well-formed.
-/
import GotoBasic.Proofs.Parse.Setting
import GotoBasic.Proofs.Parse.WellFormed
import GotoBasic.Proofs.Token.Writing
import Mathlib.Data.List.Induction

namespace GotoBasic

/-! ## Expressions -/

theorem Derives.after_snoc {ph : Phrase} {ts us : List Token} {t : Token} {e right : Expr}
    (h : Derives ph ts e) (ht : t.joins = true) (hr : Derives .atomic us right) :
    ∀ left, ph = .after left →
      Derives (.after left) (ts ++ t :: us) (.binary e (.text t.text) right) := by
  induction h with
  | word | number | string | parens | expr => simp
  | nothing =>
    rintro left ⟨⟩
    simpa using Derives.link ht hr .nothing
  | link hu hts _ _ ih =>
    rintro left ⟨⟩
    simpa using Derives.link hu hts (ih _ rfl)

/-- An operator and an operand may follow an expression. -/
theorem Derives.snoc {ts us : List Token} {t : Token} {left right : Expr}
    (h : Derives .expr ts left) (ht : t.joins = true) (hr : Derives .atomic us right) :
    Derives .expr (ts ++ t :: us) (.binary left (.text t.text) right) := by
  cases h with
  | expr hts hus => simpa using Derives.expr hts (hus.after_snoc ht hr _ rfl)

theorem SpelledWithin.parens {n : Int} {ts : List Token} (h : SpelledWithin n ts)
    (ho : openParens ts = 0) :
    SpelledWithin (n + 1) (.of .leftParen "(" :: (ts ++ [.of .rightParen ")"])) := by
  refine ⟨fun t ht => ?_, ?_⟩
  · simp only [List.mem_cons, List.mem_append, List.not_mem_nil, or_false] at ht
    rcases ht with rfl | ht | rfl
    · rfl
    · exact h.spelled t ht
    · rfl
  · rw [nestedWithin_parens rfl rfl ho, Int.add_sub_cancel]
    exact h.nested

namespace Expr

variable {e : Expr} {n : Nat}

/-- Neither an operation nor a stray object. -/
def IsLeaf : Expr → Prop
  | literal _ | var _ => True
  | binary .. | stray _ => False

theorem WellFormed.exists_token (he : e.WellFormed) (hleaf : e.IsLeaf) :
    ∃ t, Derives .atomic [t] e ∧ SpelledWithin n [t] := by
  have hone : ∀ {t : Token}, t.Spelled → t.kind ≠ .leftParen → t.kind ≠ .rightParen →
      SpelledWithin n [t] := fun ht hl hr =>
    (spelledWithin_cons_other hl hr).2 ⟨ht, spelledWithin_nil.2 (by omega)⟩
  cases e with
  | literal v =>
    cases v with
    | number x =>
      obtain ⟨digits, hs, hx⟩ := he
      exact ⟨.of .number digits, .number rfl hx, hone hs (by simp) (by simp)⟩
    | text s =>
      exact ⟨.of .string s, .string rfl, hone he (by simp) (by simp)⟩
    | stray => exact he.elim
  | var name =>
    cases name with
    | text s => exact ⟨.of .word s, .word rfl, hone he (by simp) (by simp)⟩
    | _ => exact he.elim
  | binary | stray => exact hleaf.elim

theorem exists_joins {sign : Atom} (h : sign.IsSign) :
    ∃ t : Token, t.Spelled ∧ t.joins = true ∧ sign = .text t.text := by
  cases sign with
  | text s =>
    have hs : s ∈ ["=", "+", "-", "*", "/", "<", ">"] := h
    rcases List.mem_cons.1 hs with rfl | hs
    · exact ⟨.of .equals "=", rfl, rfl, rfl⟩
    · exact ⟨.of .operator s, hs, rfl, rfl⟩
  | _ => exact h.elim

/-- A well-formed expression is an operand, in parentheses if need be. -/
theorem WellFormed.exists_operand (he : e.WellFormed)
    (hexpr : ∀ {k : Nat}, e.rightDepth ≤ k + 1 → ∃ ts, Derives .expr ts e ∧ SpelledWithin k ts)
    (hn : e.rightDepth ≤ n) : ∃ ts, Derives .atomic ts e ∧ SpelledWithin n ts := by
  cases e with
  | literal | var =>
    obtain ⟨t, ht, hs⟩ := he.exists_token trivial
    exact ⟨[t], ht, hs⟩
  | binary left sign right =>
    obtain ⟨k, rfl⟩ : ∃ k, n = k + 1 := ⟨n - 1, by simp only [rightDepth] at hn; omega⟩
    obtain ⟨ts, hts, hs⟩ := hexpr hn
    refine ⟨.of .leftParen "(" :: (ts ++ [.of .rightParen ")"]), .parens rfl hts rfl, ?_⟩
    exact hs.parens hts.openParens_eq
  | stray => exact he.elim

/-- **A well-formed expression is in the grammar**, with as many open
    parentheses as its right operands need. -/
theorem WellFormed.exists_derives (he : e.WellFormed) (hn : e.rightDepth ≤ n + 1) :
    ∃ ts, Derives .expr ts e ∧ SpelledWithin n ts := by
  induction e generalizing n with
  | literal | var =>
    obtain ⟨t, ht, hs⟩ := he.exists_token trivial
    exact ⟨[t] ++ [], .expr ht .nothing, hs⟩
  | binary left sign right ih₁ ih₂ =>
    obtain ⟨h₁, hsign, h₂⟩ := he
    simp only [rightDepth] at hn
    obtain ⟨ts, hts, hs⟩ := ih₁ h₁ (n := n) (by omega)
    obtain ⟨us, hus, hs'⟩ := h₂.exists_operand (ih₂ h₂) (n := n) (by omega)
    obtain ⟨t, ht, hj, rfl⟩ := exists_joins hsign
    refine ⟨ts ++ t :: us, hts.snoc hj hus, ?_⟩
    rw [spelledWithin_append hts.openParens_eq]
    refine ⟨hs, ?_⟩
    rcases t.kind_of_joins hj with hk | hk <;>
      exact (spelledWithin_cons_other (by simp [hk]) (by simp [hk])).2 ⟨ht, hs'⟩
  | stray => exact he.elim

end Expr

/-! ## Statements and items -/

theorem Atom.IsName.exists_word {name : Atom} (h : name.IsName) :
    ∃ t : Token, t.Spelled ∧ t.kind = .word ∧ name = .text t.text := by
  cases name with
  | text s => exact ⟨.of .word s, h, rfl, rfl⟩
  | _ => exact h.elim

theorem isWordSpelling_of_all {c : Char} {cs : List Char}
    (h : (Text.isLetter c && cs.all Text.isWordChar) = true) : IsWordSpelling (c :: cs) := by
  rw [Bool.and_eq_true, List.all_eq_true] at h
  exact ⟨c, cs, rfl, h.1, h.2⟩

theorem Token.spelled_keyword {keyword : String}
    (h : keyword ∈ ["print", "goto", "if", "then"]) : (Token.of .word keyword).Spelled := by
  simp only [List.mem_cons, List.not_mem_nil, or_false] at h
  rcases h with rfl | rfl | rfl | rfl <;> exact isWordSpelling_of_all (by decide +kernel)

theorem Statement.WellFormed.exists_derives {s : Statement} (h : s.WellFormed) :
    ∃ ts, DerivesStatement ts s ∧ SpelledWithin maxNesting ts := by
  have hnil : SpelledWithin maxNesting [] := spelledWithin_nil.2 (by simp [maxNesting])
  cases s with
  | assign name e =>
    obtain ⟨hname, he, hd⟩ := h
    obtain ⟨t, ht, hk, rfl⟩ := hname.exists_word
    obtain ⟨ts, hts, hs⟩ := he.exists_derives hd
    refine ⟨t :: .of .equals "=" :: ts, .assign hk rfl hts, ?_⟩
    rw [spelledWithin_cons_word hk, spelledWithin_cons_equals rfl]
    exact ⟨ht, rfl, hs⟩
  | print e =>
    obtain ⟨he, hd⟩ := h
    obtain ⟨ts, hts, hs⟩ := he.exists_derives hd
    refine ⟨.of .word "print" :: ts, .print rfl hts, ?_⟩
    rw [spelledWithin_cons_word rfl]
    exact ⟨Token.spelled_keyword (by simp), hs⟩
  | goto label =>
    obtain ⟨t, ht, hk, rfl⟩ := Atom.IsName.exists_word h
    refine ⟨[.of .word "goto", t], .goto rfl hk, ?_⟩
    rw [spelledWithin_cons_word rfl, spelledWithin_cons_word hk]
    exact ⟨Token.spelled_keyword (by simp), ht, hnil⟩
  | ifThen e label =>
    obtain ⟨⟨he, hd⟩, hlabel⟩ := h
    obtain ⟨t, ht, hk, rfl⟩ := hlabel.exists_word
    obtain ⟨ts, hts, hs⟩ := he.exists_derives hd
    refine ⟨.of .word "if" :: (ts ++ [.of .word "then", t]), .ifThen rfl hts rfl hk, ?_⟩
    rw [spelledWithin_cons_word rfl, spelledWithin_append hts.openParens_eq,
      spelledWithin_cons_word rfl, spelledWithin_cons_word hk]
    exact ⟨Token.spelled_keyword (by simp), hs, Token.spelled_keyword (by simp), ht, hnil⟩
  | stray => exact h.elim

/-- Well-formed items are in the grammar, with a line break behind them. -/
theorem exists_derivesProgram {items : List Item} (h : ∀ item ∈ items, item.WellFormed) :
    ∃ ts, DerivesProgram (ts ++ [.of .line "\n"]) items ∧
      SpelledWithin maxNesting (ts ++ [.of .line "\n"]) := by
  induction items with
  | nil =>
    refine ⟨[], .lines (by simp [AllLines]), ?_⟩
    rw [List.nil_append, spelledWithin_cons_other (by simp) (by simp)]
    exact ⟨rfl, spelledWithin_nil.2 (by simp [maxNesting])⟩
  | cons item items ih =>
    obtain ⟨us, hus, hs⟩ := ih fun i hi => h i (by simp [hi])
    have hitem := h item (by simp)
    cases item with
    | label name =>
      refine ⟨.of .label name :: us, .label allLines_nil rfl hus, ?_⟩
      rw [List.cons_append, spelledWithin_cons_other (by simp) (by simp)]
      exact ⟨hitem, hs⟩
    | statement s =>
      obtain ⟨ts, hts, hs'⟩ := Statement.WellFormed.exists_derives hitem
      refine ⟨ts ++ us, ?_, ?_⟩
      · simpa using DerivesProgram.statement allLines_nil hts hus
      · rw [List.append_assoc, spelledWithin_append hts.openParens_eq]
        exact ⟨hs', hs⟩

/-- **Well-formed items are those of a text.** -/
theorem exists_parse_of_items {items : List Item} (h : ∀ item ∈ items, item.WellFormed) :
    ∃ source, Program.parse source = .ok (.ofItems items) := by
  obtain ⟨ts, hts, hs, hn⟩ := exists_derivesProgram h
  have hkind := hts.ne_eof
  obtain ⟨source, hsource⟩ := exists_source (fun t ht => hs t (List.mem_append_left _ ht))
    fun t ht => hkind t (List.mem_append_left _ ht)
  have hparse : Program.ofTokens (ts ++ [.of .line "\n"] ++ [.of .eof ""]) =
      .ok (.ofItems items) := by
    refine ofTokens_eq_ok_iff.2 ⟨items, ?_⟩
    have hup : upToEnd (ts ++ [.of .line "\n"] ++ [.of .eof ""]) = ts ++ [.of .line "\n"] := by
      rw [upToEnd_append hkind]
      simp [upToEnd]
    rw [hup]
    exact ⟨hts, hn, rfl⟩
  refine ⟨source, ofTokens_eq_ok_of_lexemes (by simp) ?_ hparse⟩
  rw [hsource]
  simp [Token.lexeme, Token.of]

/-! ## The items of a program -/

/-- The labels, with those that mark something behind the first `n` statements
    at their end. -/
def Bindings.capped (labels : Bindings String Int) (n : Int) : Bindings String Int :=
  labels.map fun l => (l.1, min l.2 n)

theorem Bindings.keys_capped (labels : Bindings String Int) (n : Int) :
    (labels.capped n).keys = labels.keys := by
  simp [capped, keys]

/-- The labels that mark the statement at `n`. -/
def Bindings.marking (labels : Bindings String Int) (n : Int) : Bindings String Int :=
  labels.filter (·.2 == n)

theorem Program.foldl_add_labels {p : Program} {labels : Bindings String Int}
    (h : ∀ l ∈ labels, l.2 = p.statements.size) :
    (labels.keys.map Item.label).foldl Program.add p =
      ⟨p.statements, p.labels.override labels⟩ := by
  induction labels generalizing p with
  | nil => rfl
  | cons l labels ih =>
    have hl := h l (by simp)
    have hadd := ih (p := p.add (.label l.1)) fun l hl => h l (by simp [hl])
    simpa [Bindings.override_cons, Program.add, hl] using hadd

/-- The labels behind one more statement are marked anew. -/
theorem Bindings.override_marking {labels : Bindings String Int} {n : Int}
    (hd : labels.keys.Nodup) (hn : ∀ l ∈ labels, l.2 ≤ n + 1) :
    (labels.capped n).override (labels.marking (n + 1)) = labels := by
  have hmem : ∀ {l}, l ∈ labels.marking (n + 1) ↔ l ∈ labels ∧ l.2 = n + 1 := by simp [marking]
  rw [override_eq_map (a := n + 1) (by rwa [keys_capped]), capped, List.map_map]
  · conv_rhs => rw [← List.map_id labels]
    refine List.map_congr_left fun l hl => ?_
    by_cases hm : l.1 ∈ (labels.marking (n + 1)).keys
    · -- the names are distinct, so `l` itself marks the end
      obtain ⟨l', hl', heq⟩ := List.mem_map.1 hm
      obtain ⟨hl', hplace⟩ := hmem.1 hl'
      obtain rfl := List.inj_on_of_nodup_map hd hl' hl heq
      rw [Function.comp_apply, if_pos (by simpa using hm), ← hplace, id]
    · have hplace : l.2 ≠ n + 1 := fun h => hm (List.mem_map_of_mem (hmem.2 ⟨hl, h⟩))
      have := hn l hl
      have hmin : min l.2 n = l.2 := by omega
      simp [hm, hmin]
  · intro l hl
    obtain ⟨hl, hplace⟩ := hmem.1 hl
    exact ⟨keys_capped labels n ▸ List.mem_map_of_mem hl, hplace⟩

theorem wellFormed_of_mem_map_label {names : List String}
    (h : ∀ name ∈ names, IsWordSpelling name.toList) :
    ∀ item ∈ names.map Item.label, item.WellFormed := by
  intro item hi
  obtain ⟨name, hname, rfl⟩ := List.mem_map.1 hi
  exact h name hname

/-- What precedes the last statement of a well-formed program is well-formed. -/
theorem Program.WellFormed.init {ss : List Statement} {s : Statement}
    {labels : Bindings String Int} (h : Program.WellFormed ⟨(ss ++ [s]).toArray, labels⟩) :
    Program.WellFormed ⟨ss.toArray, labels.capped ss.length⟩ := by
  refine ⟨fun s' hs' => h.statements s' ?_, ?_, fun l hl => ?_, ?_⟩
  · simp at hs' ⊢
    exact .inl hs'
  · rw [Bindings.keys_capped]
    exact h.names
  · obtain ⟨l', hl', rfl⟩ := List.mem_map.1 hl
    have := h.places l' hl'
    simp only [List.size_toArray]
    omega
  · rw [Bindings.keys_capped]
    exact h.distinct

/-- **A well-formed program consists of well-formed items.** -/
theorem Program.WellFormed.exists_items {p : Program} (h : p.WellFormed) :
    ∃ items : List Item, (∀ item ∈ items, item.WellFormed) ∧ p = .ofItems items := by
  obtain ⟨⟨ss⟩, labels⟩ := p
  -- on the statements from the last one on: the labels behind it come last
  induction ss using List.reverseRecOn generalizing labels with
  | nil =>
    refine ⟨labels.keys.map .label, wellFormed_of_mem_map_label h.names, ?_⟩
    have hplace : ∀ l ∈ labels, l.2 = (Program.empty.statements.size : Int) := by
      intro l hl
      have := h.places l hl
      simp only [empty, List.size_toArray, List.length_nil] at this ⊢
      omega
    have hall : Bindings.override [] labels = [] ++ labels :=
      Bindings.override_of_disjoint h.distinct
    rw [ofItems, foldl_add_labels hplace, empty, hall]
    rfl
  | append_singleton ss s ih =>
    obtain ⟨items, hitems, heq⟩ := ih _ h.init
    have hnames : ∀ name ∈ (labels.marking (ss.length + 1)).keys, IsWordSpelling name.toList :=
      fun name hn => h.names name ((List.filter_sublist.map Prod.fst).subset hn)
    refine ⟨items ++ .statement s :: (labels.marking (ss.length + 1)).keys.map .label, ?_, ?_⟩
    · intro item hi
      rcases List.mem_append.1 hi with hi | hi
      · exact hitems item hi
      rcases List.mem_cons.1 hi with rfl | hi
      · exact h.statements s (by simp)
      · exact wellFormed_of_mem_map_label hnames item hi
    · have hplace : ∀ l ∈ labels, l.2 ≤ (ss.length : Int) + 1 := by
        intro l hl
        have := h.places l hl
        simp at this
        omega
      rw [ofItems, List.foldl_append, ← ofItems, ← heq, List.foldl_cons, foldl_add_labels]
      · simp [Program.add, Bindings.override_marking h.distinct hplace]
      · simp [Bindings.marking, Program.add]

/-- **A program is that of a text iff it is well-formed.** -/
theorem exists_parse_iff_wellFormed (p : Program) :
    (∃ source, Program.parse source = .ok p) ↔ p.WellFormed := by
  constructor
  · rintro ⟨source, h⟩
    exact wellFormed_of_parse h
  · intro h
    obtain ⟨items, hitems, rfl⟩ := h.exists_items
    exact exists_parse_of_items hitems

end GotoBasic
