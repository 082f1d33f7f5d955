/-
  The grammar of programs, as relations between tokens and what they stand for.

      program  := ( LINE* ( LABEL | assign | print | goto | ifThen ) )* LINE*
      assign   := WORD EQUALS expr
      print    := "print" expr
      goto     := "goto" WORD
      ifThen   := "if" expr "then" WORD
      expr     := atomic ( (OPERATOR | EQUALS) atomic )*
      atomic   := WORD | NUMBER | STRING | LEFT_PAREN expr RIGHT_PAREN

  * `Derives .expr ts e`, `Derives .atomic ts e`: the tokens `ts` are an
    expression, or an operand, with the tree `e`; operators lean to the left
    and parentheses leave no trace in the tree;
  * `DerivesStatement ts s`, `DerivesProgram ts items`: the tokens are a
    statement, or a program with these labels and statements in order;
  * `NestedWithin n ts`: nowhere in `ts` are more than `n` parentheses open.

  The grammar itself sets no bound on parentheses.
-/
import GotoBasic.Parse.Program

namespace GotoBasic

/-- The phrases that make up an expression. -/
inductive Phrase where
  | atomic
  | expr
  /-- the operators and operands that follow the operand `left` -/
  | after (left : Expr)

/-- The tokens of a phrase, with the expression they give; behind an operand
    `left` that is the whole expression from `left` on. -/
inductive Derives : Phrase → List Token → Expr → Prop
  | word {t} : t.kind = .word → Derives .atomic [t] (.var (.text t.text))
  | number {t x} : t.kind = .number → Number.ofGrouped? t.text = some x →
      Derives .atomic [t] (.literal (.number x))
  | string {t} : t.kind = .string → Derives .atomic [t] (.literal (.text t.text))
  | parens {t u ts e} : t.kind = .leftParen → Derives .expr ts e → u.kind = .rightParen →
      Derives .atomic (t :: (ts ++ [u])) e
  | expr {ts us first e} : Derives .atomic ts first → Derives (.after first) us e →
      Derives .expr (ts ++ us) e
  | nothing {left} : Derives (.after left) [] left
  | link {t ts us left right e} : t.joins = true → Derives .atomic ts right →
      Derives (.after (.binary left (.text t.text) right)) us e →
      Derives (.after left) (t :: (ts ++ us)) e

/-- The tokens of a statement. -/
inductive DerivesStatement : List Token → Statement → Prop
  | assign {t u ts e} : t.kind = .word → u.kind = .equals → Derives .expr ts e →
      DerivesStatement (t :: u :: ts) (.assign (.text t.text) e)
  | print {t ts e} : t.isWord "print" = true → Derives .expr ts e →
      DerivesStatement (t :: ts) (.print e)
  | goto {t u} : t.isWord "goto" = true → u.kind = .word →
      DerivesStatement [t, u] (.goto (.text u.text))
  | ifThen {t u v ts e} : t.isWord "if" = true → Derives .expr ts e → u.isWord "then" = true →
      v.kind = .word → DerivesStatement (t :: (ts ++ [u, v])) (.ifThen e (.text v.text))

/-- What a program consists of. -/
inductive Item where
  | label (name : String)
  | statement (s : Statement)

/-- The statement that an item is. -/
def Item.statement? : Item → Option Statement
  | label _ => none
  | statement s => some s

/-- The tokens are line breaks. -/
def AllLines (ts : List Token) : Prop := ∀ t ∈ ts, t.kind = .line

/-- The tokens of a program. -/
inductive DerivesProgram : List Token → List Item → Prop
  | lines {ls} : AllLines ls → DerivesProgram ls []
  | label {ls t ts items} : AllLines ls → t.kind = .label → DerivesProgram ts items →
      DerivesProgram (ls ++ t :: ts) (.label t.text :: items)
  | statement {ls ts us s items} : AllLines ls → DerivesStatement ts s →
      DerivesProgram us items → DerivesProgram (ls ++ (ts ++ us)) (.statement s :: items)

/-- The tokens in front of the first one for the end of the text. -/
def upToEnd (tokens : List Token) : List Token := tokens.takeWhile (·.kind != .eof)

/-- A token somewhere. -/
def Token.of (kind : TokenKind) (text : String) : Token := ⟨kind, text, ⟨0, 0⟩⟩

@[simp] theorem Token.kind_of (kind : TokenKind) (text : String) : (of kind text).kind = kind := rfl

/-! ## The program of a list of items -/

/-- The program with one more item; a label marks the next statement. -/
def Program.add (p : Program) : Item → Program
  | .label name => { p with labels := p.labels.put name p.statements.size }
  | .statement s => { p with statements := p.statements.push s }

/-- The program that consists of the items. -/
def Program.ofItems (items : List Item) : Program := items.foldl Program.add .empty

theorem Program.statements_foldl_add (items : List Item) (p : Program) :
    (items.foldl Program.add p).statements.toList =
      p.statements.toList ++ items.filterMap Item.statement? := by
  induction items generalizing p with
  | nil => simp
  | cons item items ih =>
    cases item <;> simp [ih, Program.add, Item.statement?, List.filterMap_cons]

theorem Program.statements_ofItems (items : List Item) :
    (Program.ofItems items).statements.toList = items.filterMap Item.statement? := by
  simp [ofItems, statements_foldl_add, Program.empty]

/-! ## Open parentheses -/

/-- How many parentheses the tokens open and do not close. -/
def openParens (ts : List Token) : Int :=
  ts.countP (·.kind == .leftParen) - ts.countP (·.kind == .rightParen)

/-- At no point of the tokens are more than `n` parentheses open. -/
def NestedWithin (n : Int) (ts : List Token) : Prop :=
  ∀ front, front <+: ts → openParens front ≤ n

@[simp] theorem openParens_nil : openParens [] = 0 := rfl

@[simp] theorem openParens_append (ts us : List Token) :
    openParens (ts ++ us) = openParens ts + openParens us := by
  simp only [openParens, List.countP_append]; omega

theorem openParens_cons (t : Token) (ts : List Token) :
    openParens (t :: ts) = openParens [t] + openParens ts := openParens_append [t] ts

@[simp] theorem openParens_leftParen {t : Token} (h : t.kind = .leftParen) :
    openParens [t] = 1 := by
  simp [openParens, h]

@[simp] theorem openParens_rightParen {t : Token} (h : t.kind = .rightParen) :
    openParens [t] = -1 := by
  simp [openParens, h]

/-- Only parentheses count. -/
theorem openParens_cons_other {t : Token} {ts : List Token} (hl : t.kind ≠ .leftParen)
    (hr : t.kind ≠ .rightParen) : openParens (t :: ts) = openParens ts := by
  simp [openParens, hl, hr]

theorem nestedWithin_nil {n : Int} : NestedWithin n [] ↔ 0 ≤ n := by
  simp [NestedWithin]

theorem nestedWithin_cons {n : Int} {t : Token} {ts : List Token} :
    NestedWithin n (t :: ts) ↔ 0 ≤ n ∧ NestedWithin (n - openParens [t]) ts := by
  constructor
  · intro h
    refine ⟨h [] (List.nil_prefix), fun front hf => ?_⟩
    have := h (t :: front) (List.cons_prefix_cons.2 ⟨rfl, hf⟩)
    rw [openParens_cons] at this
    omega
  · rintro ⟨h0, h⟩ front hf
    rcases List.prefix_cons_iff.1 hf with rfl | ⟨front, rfl, hf'⟩
    · exact h0
    · have := h front hf'
      rw [openParens_cons]
      omega

theorem NestedWithin.nonneg {n : Int} {ts : List Token} (h : NestedWithin n ts) : 0 ≤ n :=
  h [] List.nil_prefix

theorem nestedWithin_cons_other {n : Int} {t : Token} {ts : List Token}
    (hl : t.kind ≠ .leftParen) (hr : t.kind ≠ .rightParen) :
    NestedWithin n (t :: ts) ↔ NestedWithin n ts := by
  rw [nestedWithin_cons, openParens_cons_other hl hr, openParens_nil, Int.sub_zero]
  exact ⟨And.right, fun h => ⟨h.nonneg, h⟩⟩

theorem nestedWithin_append {n : Int} {ts us : List Token} :
    NestedWithin n (ts ++ us) ↔ NestedWithin n ts ∧ NestedWithin (n - openParens ts) us := by
  induction ts generalizing n with
  | nil =>
    simp only [List.nil_append, nestedWithin_nil, openParens_nil, Int.sub_zero]
    exact ⟨fun h => ⟨h.nonneg, h⟩, And.right⟩
  | cons t ts ih =>
    rw [List.cons_append, nestedWithin_cons, ih, nestedWithin_cons, openParens_cons t ts, and_assoc,
      Int.sub_sub]

end GotoBasic
