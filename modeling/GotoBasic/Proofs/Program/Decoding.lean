/-
  Outlines lose nothing.

  * `Expr.Typed`, `Statement.Typed`, `Program.Typed`: programs without stray
    items, all names and signs of which are texts; the signs may be any texts,
    and the trees of any shape;
  * `Expr.head`, `Expr.links`: the first operand of the chain that an expression
    is, and its links; an operation appends one link to those of its left
    operand (`Expr.outline_binary`);
  * `Program.ofOutline?`: reads an outline back; the links of a chain are folded
    over its first operand, in their order (`Expr.ofLinks?`);
  * `Json.written`: a JSON value with its numbers as texts; `Program.Alike`: the
    same program up to numbers that have the same text;
  * `Json.Flat`: the first operand of an operation is no operation;
  * `outline_faithful`: an outline reads back as its program, programs are alike
    if their outlines are, and outlines are flat.
-/
import Mathlib.Data.List.Forall2
import GotoBasic.Program.Outline

namespace GotoBasic

/-! ## Typed programs -/

/-- Literals, variables and operations, in any shape. -/
inductive Expr.Typed : Expr → Prop where
  | number {x : Number} : Typed (.literal (.number x))
  | text {s : String} : Typed (.literal (.text s))
  | var {name : String} : Typed (.var (.text name))
  | binary {left right : Expr} {sign : String} : Typed left → Typed right →
      Typed (.binary left (.text sign) right)

/-- A statement whose parts are of the right types. -/
inductive Statement.Typed : Statement → Prop where
  | assign {name : String} {e : Expr} : e.Typed → Typed (.assign (.text name) e)
  | print {e : Expr} : e.Typed → Typed (.print e)
  | goto {label : String} : Typed (.goto (.text label))
  | ifThen {e : Expr} {label : String} : e.Typed → Typed (.ifThen e (.text label))

/-- A program of typed statements. -/
def Program.Typed (p : Program) : Prop := ∀ s ∈ p.statements, s.Typed

/-! ## Reading outlines -/

/-- The value with the given outline. -/
def Value.ofOutline? : Json → Option Value
  | .object [("type", .string "NumberValue"), ("value", .number x)] => some (.number x)
  | .object [("type", .string "StringValue"), ("value", .string s)] => some (.text s)
  | _ => none

namespace Expr

mutual

/-- The expression with the given outline. -/
def ofOutline? : Json → Option Expr
  | .object [("type", .string "Literal"), ("value", value)] =>
    (Value.ofOutline? value).map literal
  | .object [("type", .string "Variable"), ("name", .string name)] => some (var (.text name))
  | .object [("type", .string "BinaryOp"), ("first", first), ("rest", .array links)] =>
    (ofOutline? first).bind (ofLinks? links)
  | _ => none

/-- Folds links over the operand on their left. -/
def ofLinks? : List Json → Expr → Option Expr
  | [], left => some left
  | link :: links, left => (ofLink? link left).bind (ofLinks? links)

/-- Links one more operand to the one on the left. -/
def ofLink? : Json → Expr → Option Expr
  | .object [("op", .string sign), ("right", right)], left =>
    (ofOutline? right).map (binary left (.text sign))
  | _, _ => none

end

end Expr

/-- The statement with the given outline. -/
def Statement.ofOutline? : Json → Option Statement
  | .object [("type", .string "AssignStatement"), ("name", .string name), ("expr", e)] =>
    (Expr.ofOutline? e).map (assign (.text name))
  | .object [("type", .string "PrintStatement"), ("expr", e)] => (Expr.ofOutline? e).map print
  | .object [("type", .string "GotoStatement"), ("label", .string label)] =>
    some (goto (.text label))
  | .object [("type", .string "IfThenStatement"), ("condition", e), ("label", .string label)] =>
    (Expr.ofOutline? e).map (ifThen · (.text label))
  | _ => none

/-- The label with its index from a field of the label table. -/
def Program.labelOfField? : String × Json → Option (String × Int)
  | (name, .integer index) => some (name, index)
  | _ => none

/-- The program with the given outline. -/
def Program.ofOutline? : Json → Option Program
  | .object [("type", .string "Program"), ("statements", .array statements),
      ("labels", .object labels)] => do
    let statements ← statements.mapM Statement.ofOutline?
    let labels ← labels.mapM labelOfField?
    return ⟨statements.toArray, labels⟩
  | _ => none

/-! ## The spine of an expression -/

namespace Expr

/-- The outline of the leftmost operand. -/
def head : Expr → Json
  | binary left _ _ => left.head
  | e => e.outline

/-- The signs with the operands on their right, from the leftmost operand on. -/
def links : Expr → List Json
  | binary left sign right =>
    left.links ++ [.object [("op", sign.toJson), ("right", right.outline)]]
  | _ => []

theorem outlineChain_eq (e : Expr) (rest : List Json) :
    e.outlineChain rest = chain e.head (e.links ++ rest) := by
  induction e generalizing rest with
  | literal _ | var _ | stray _ => rfl
  | binary left sign right ihl _ =>
    rw [outlineChain, ihl, head, links, List.append_assoc]
    rfl

theorem outline_eq (e : Expr) : e.outline = chain e.head e.links := by
  rw [outline, outlineChain_eq, List.append_nil]

@[simp]
theorem outline_number (x : Number) : (literal (.number x)).outline =
    .tagged "Literal" [("value", .tagged "NumberValue" [("value", .number x)])] := rfl

@[simp]
theorem outline_text (s : String) : (literal (.text s)).outline =
    .tagged "Literal" [("value", .tagged "StringValue" [("value", .string s)])] := rfl

@[simp]
theorem outline_var (name : String) : (var (.text name)).outline =
    .tagged "Variable" [("name", .string name)] := rfl

/-- An operation appends a link to the chain on its left. -/
@[simp]
theorem outline_binary (left right : Expr) (sign : Atom) :
    (binary left sign right).outline = .tagged "BinaryOp" [("first", left.head), ("rest",
      .array (left.links ++ [.object [("op", sign.toJson), ("right", right.outline)]]))] := by
  rw [outline_eq, head, links, chain]
  simp

theorem Typed.field_eq {e : Expr} (he : e.Typed) : e.field = some e.outline := by
  cases he <;> rfl

end Expr

namespace Statement

section
variable {e : Expr} (he : e.Typed)
include he

theorem outline_assign (name : String) : (assign (.text name) e).outline =
    .tagged "AssignStatement" [("name", .string name), ("expr", e.outline)] := by
  rw [outline, he.field_eq]
  rfl

theorem outline_print : (print e).outline = .tagged "PrintStatement" [("expr", e.outline)] := by
  rw [outline, he.field_eq]
  rfl

theorem outline_ifThen (label : String) : (ifThen e (.text label)).outline =
    .tagged "IfThenStatement" [("condition", e.outline), ("label", .string label)] := by
  rw [outline, he.field_eq]
  rfl

end

theorem outline_goto (label : String) :
    (goto (.text label)).outline = .tagged "GotoStatement" [("label", .string label)] := rfl

end Statement

theorem Program.labelOutline_eq (p : Program) :
    p.labelOutline = .object (p.labels.map fun label => (label.1, .integer label.2)) := rfl

/-! ## Outlines read back -/

/-- Items that read back one by one read back as a list. -/
theorem mapM_map_of_inverse {α β : Type} {read : β → Option α} {write : α → β} {items : List α}
    (h : ∀ a ∈ items, read (write a) = some a) : (items.map write).mapM read = some items := by
  induction items with
  | nil => rfl
  | cons a items ih =>
    have hrest := ih fun b hb => h b (List.mem_cons_of_mem a hb)
    simp [h a List.mem_cons_self, hrest]

namespace Expr

theorem ofLinks?_append (ls ms : List Json) :
    ofLinks? (ls ++ ms) = fun left => (ofLinks? ls left).bind (ofLinks? ms) := by
  induction ls with
  | nil => simp [ofLinks?]
  | cons l ls ih =>
    funext left
    simp only [List.cons_append, ofLinks?, Option.bind_assoc, ih]

theorem ofOutline?_chain (first : Json) (ls : List Json) :
    ofOutline? (chain first ls) = (ofOutline? first).bind (ofLinks? ls) := by
  cases ls with
  | nil =>
    cases h : ofOutline? first with
    | none => exact h
    | some e => simpa [ofLinks?, chain] using h
  | cons l ls => simp [chain, Json.tagged, ofOutline?]

/-- **The outline of an expression reads back as the expression.** -/
theorem ofOutline?_outline {e : Expr} (he : e.Typed) : ofOutline? e.outline = some e := by
  induction he with
  | number | text | var => rfl
  | @binary left right sign _ _ ihl ihr =>
    have hlink : ofLinks? [.object [("op", .string sign), ("right", right.outline)]] left =
        some (binary left (.text sign) right) := by
      simp [ofLinks?, ofLink?, ihr]
    -- the links of the left operand give the operand itself, and one is left
    rw [outline_eq, ofOutline?_chain] at ihl
    rw [outline_eq, ofOutline?_chain, head, links, ofLinks?_append, ← Option.bind_assoc, ihl]
    exact hlink

end Expr

/-- The outline of a statement reads back as the statement. -/
theorem Statement.ofOutline?_outline {s : Statement} (hs : s.Typed) :
    ofOutline? s.outline = some s := by
  cases hs with
  | assign he => simp [outline_assign he, Json.tagged, ofOutline?, Expr.ofOutline?_outline he]
  | print he => simp [outline_print he, Json.tagged, ofOutline?, Expr.ofOutline?_outline he]
  | goto => rfl
  | ifThen he => simp [outline_ifThen he, Json.tagged, ofOutline?, Expr.ofOutline?_outline he]

/-- **The outline of a program reads back as the program.** -/
theorem Program.ofOutline?_outline {p : Program} (hp : p.Typed) :
    ofOutline? p.outline = some p := by
  have hstatements : (p.statements.toList.map Statement.outline).mapM Statement.ofOutline? =
      some p.statements.toList :=
    mapM_map_of_inverse fun s hs => Statement.ofOutline?_outline (hp s (Array.mem_toList_iff.1 hs))
  have hlabels : (p.labels.map fun label => (label.1, Json.integer label.2)).mapM labelOfField? =
      some p.labels :=
    mapM_map_of_inverse fun _ _ => rfl
  simp [outline, outlineOf, labelOutline_eq, Json.tagged, ofOutline?, hstatements, hlabels]

/-! ## Numbers as texts -/

namespace Json

mutual

/-- A JSON value with its numbers as texts. -/
def written : Json → Json
  | number x => .string x.toText
  | array items => .array (writtenItems items)
  | object fields => .object (writtenFields fields)
  | j => j

/-- Items with their numbers as texts. -/
def writtenItems : List Json → List Json
  | [] => []
  | item :: items => item.written :: writtenItems items

/-- Fields with their numbers as texts. -/
def writtenFields : List (String × Json) → List (String × Json)
  | [] => []
  | (name, j) :: fields => (name, j.written) :: writtenFields fields

end

@[simp]
theorem written_integer (n : Int) : (integer n).written = integer n := rfl

@[simp]
theorem written_number (x : Number) : (number x).written = string x.toText := rfl

@[simp]
theorem written_string (s : String) : (string s).written = string s := rfl

@[simp]
theorem written_array (items : List Json) : (array items).written = array (items.map written) := by
  have h : writtenItems items = items.map written := by
    induction items with
    | nil => rfl
    | cons item items ih => rw [writtenItems, ih, List.map_cons]
  rw [written, h]

@[simp]
theorem written_object (fields : List (String × Json)) :
    (object fields).written = object (fields.map fun (name, j) => (name, j.written)) := by
  have h : writtenFields fields = fields.map fun (name, j) => (name, j.written) := by
    induction fields with
    | nil => rfl
    | cons field fields ih => rw [writtenFields, ih, List.map_cons]
  rw [written, h]

@[simp]
theorem written_tagged (type : String) (fields : List (String × Json)) :
    (tagged type fields).written = tagged type (fields.map fun (name, j) => (name, j.written)) := by
  rw [tagged, written_object]
  rfl

@[simp]
theorem tagged_inj {type type' : String} {fields fields' : List (String × Json)} :
    tagged type fields = tagged type' fields' ↔ type = type' ∧ fields = fields' := by
  simp [tagged]

end Json

/-- The same expression, up to numbers that have the same text. -/
inductive Expr.Alike : Expr → Expr → Prop where
  | number {x y : Number} : x.toText = y.toText →
      Alike (.literal (.number x)) (.literal (.number y))
  | text {s : String} : Alike (.literal (.text s)) (.literal (.text s))
  | var {name : Atom} : Alike (.var name) (.var name)
  | binary {left left' right right' : Expr} {sign : Atom} : Alike left left' →
      Alike right right' → Alike (.binary left sign right) (.binary left' sign right')

/-- The same statement, up to numbers that have the same text. -/
inductive Statement.Alike : Statement → Statement → Prop where
  | assign {name : Atom} {e e' : Expr} : e.Alike e' → Alike (.assign name e) (.assign name e')
  | print {e e' : Expr} : e.Alike e' → Alike (.print e) (.print e')
  | goto {label : Atom} : Alike (.goto label) (.goto label)
  | ifThen {e e' : Expr} {label : Atom} : e.Alike e' → Alike (.ifThen e label) (.ifThen e' label)

/-- The same program, up to numbers that have the same text. -/
structure Program.Alike (p q : Program) : Prop where
  statements : List.Forall₂ Statement.Alike p.statements.toList q.statements.toList
  labels : p.labels = q.labels

namespace Expr

theorem written_chain (first : Json) (ls : List Json) :
    (chain first ls).written = chain first.written (ls.map Json.written) := by
  cases ls <;> simp [chain]

section
variable {e e' : Expr}

theorem written_outline_congr (hhead : e.head.written = e'.head.written)
    (hlinks : e.links.map Json.written = e'.links.map Json.written) :
    e.outline.written = e'.outline.written := by
  rw [outline_eq, outline_eq, written_chain, written_chain, hhead, hlinks]

/-- Expressions with the same written outline are alike. -/
theorem alike_of_written (he : e.Typed) (he' : e'.Typed)
    (h : e.outline.written = e'.outline.written) : e.Alike e' := by
  induction he generalizing e' with
  | number =>
    cases he' with
    | number => exact .number (by simpa using h)
    | text | var | binary _ _ => simp at h
  | @text s =>
    cases he' with
    | @text s' =>
      obtain rfl : s = s' := by simpa using h
      exact .text
    | number | var | binary _ _ => simp at h
  | @var name =>
    cases he' with
    | @var name' =>
      obtain rfl : name = name' := by simpa using h
      exact .var
    | number | text | binary _ _ => simp at h
  | @binary left right sign _ _ ihl ihr =>
    cases he' with
    | @binary left' right' sign' hl' hr' =>
      -- the last links are equal, and so are the chains in front of them
      obtain ⟨hhead, hlinks, rfl, hright⟩ : left.head.written = left'.head.written ∧
          left.links.map Json.written = left'.links.map Json.written ∧ sign = sign' ∧
          right.outline.written = right'.outline.written := by
        simpa [Atom.toJson] using h
      exact .binary (ihl hl' (written_outline_congr hhead hlinks)) (ihr hr' hright)
    | number | text | var => simp at h

theorem Alike.written_spine (h : e.Alike e') : e.head.written = e'.head.written ∧
    e.links.map Json.written = e'.links.map Json.written := by
  induction h with
  | number hx => simp [head, links, hx]
  | text | var => exact ⟨rfl, rfl⟩
  | binary _ _ ihl ihr =>
    obtain ⟨hhead, hlinks⟩ := ihl
    have hright := written_outline_congr ihr.1 ihr.2
    exact ⟨hhead, by simp [links, hlinks, hright]⟩

theorem Alike.written_eq (h : e.Alike e') : e.outline.written = e'.outline.written :=
  written_outline_congr h.written_spine.1 h.written_spine.2

end

end Expr

namespace Statement

variable {s s' : Statement}

theorem alike_of_written (hs : s.Typed) (hs' : s'.Typed)
    (h : s.outline.written = s'.outline.written) : s.Alike s' := by
  cases hs with
  | @assign name e he =>
    cases hs' with
    | @assign name' e' he' =>
      obtain ⟨rfl, hexpr⟩ : name = name' ∧ e.outline.written = e'.outline.written := by
        simpa [outline_assign he, outline_assign he'] using h
      exact .assign (Expr.alike_of_written he he' hexpr)
    | print _ | goto | ifThen _ => simp [outline] at h
  | print he =>
    cases hs' with
    | print he' =>
      simp only [outline_print he, outline_print he'] at h
      exact .print (Expr.alike_of_written he he' (by simpa using h))
    | assign _ | goto | ifThen _ => simp [outline] at h
  | @goto label =>
    cases hs' with
    | @goto label' =>
      obtain rfl : label = label' := by simpa [outline_goto] using h
      exact .goto
    | assign _ | print _ | ifThen _ => simp [outline] at h
  | @ifThen e label he =>
    cases hs' with
    | @ifThen e' label' he' =>
      obtain ⟨hexpr, rfl⟩ : e.outline.written = e'.outline.written ∧ label = label' := by
        simpa [outline_ifThen he, outline_ifThen he'] using h
      exact .ifThen (Expr.alike_of_written he he' hexpr)
    | assign _ | print _ | goto => simp [outline] at h

theorem Alike.written_eq (h : s.Alike s') (hs : s.Typed) (hs' : s'.Typed) :
    s.outline.written = s'.outline.written := by
  cases h with
  | assign h =>
    cases hs with | assign he => cases hs' with | assign he' =>
      simp [outline_assign he, outline_assign he', h.written_eq]
  | print h =>
    cases hs with | print he => cases hs' with | print he' =>
      simp [outline_print he, outline_print he', h.written_eq]
  | goto => rfl
  | ifThen h =>
    cases hs with | ifThen he => cases hs' with | ifThen he' =>
      simp [outline_ifThen he, outline_ifThen he', h.written_eq]

end Statement

/-- Lists with equal images are related item by item, if equal images are. -/
theorem map_eq_map_iff_forall₂ {α β : Type} {f : α → β} {R : α → α → Prop} {as bs : List α}
    (h : ∀ a ∈ as, ∀ b ∈ bs, (f a = f b ↔ R a b)) :
    as.map f = bs.map f ↔ List.Forall₂ R as bs := by
  induction as generalizing bs with
  | nil => cases bs <;> simp
  | cons a as ih =>
    cases bs with
    | nil => simp
    | cons b bs =>
      have hrest := @ih bs fun a' ha b' hb =>
        h a' (List.mem_cons_of_mem a ha) b' (List.mem_cons_of_mem b hb)
      simp [h a List.mem_cons_self b List.mem_cons_self, hrest]

namespace Program

variable {p q : Program}

theorem written_outline (p : Program) : p.outline.written =
    outlineOf (p.statements.toList.map fun s => s.outline.written) p.labelOutline := by
  have hlabels : p.labelOutline.written = p.labelOutline := by simp [labelOutline_eq]
  simp [outline, outlineOf, hlabels]

theorem labelOutline_inj : p.labelOutline = q.labelOutline ↔ p.labels = q.labels := by
  have hinj (l l' : String × Int) (h : (l.1, Json.integer l.2) = (l'.1, .integer l'.2)) :
      l = l' := by
    simpa [Prod.ext_iff] using h
  rw [labelOutline_eq, labelOutline_eq, Json.object.injEq]
  exact List.map_inj_right hinj

/-- **Programs are alike if their outlines are.** -/
theorem written_outline_inj (hp : p.Typed) (hq : q.Typed) :
    p.outline.written = q.outline.written ↔ p.Alike q := by
  have hstatements : (p.statements.toList.map fun s => s.outline.written) =
      (q.statements.toList.map fun s => s.outline.written) ↔
      List.Forall₂ Statement.Alike p.statements.toList q.statements.toList := by
    refine map_eq_map_iff_forall₂ fun s hs s' hs' => ?_
    have hs := hp s (Array.mem_toList_iff.1 hs)
    have hs' := hq s' (Array.mem_toList_iff.1 hs')
    exact ⟨Statement.alike_of_written hs hs', fun h => h.written_eq hs hs'⟩
  have houtline : p.outline.written = q.outline.written ↔
      (p.statements.toList.map fun s => s.outline.written) =
        (q.statements.toList.map fun s => s.outline.written) ∧ p.labelOutline = q.labelOutline := by
    simp [written_outline, outlineOf]
  rw [houtline, hstatements, labelOutline_inj]
  exact ⟨fun ⟨h, h'⟩ => ⟨h, h'⟩, fun ⟨h, h'⟩ => ⟨h, h'⟩⟩

end Program

/-! ## Flat chains -/

namespace Json

/-- One JSON value is the other or a part of it. -/
inductive Within (j : Json) : Json → Prop where
  | here : Within j j
  | item {k : Json} {items : List Json} : k ∈ items → Within j k → Within j (.array items)
  | field {name : String} {k : Json} {fields : List (String × Json)} : (name, k) ∈ fields →
      Within j k → Within j (.object fields)

/-- The field with the given name. -/
def field? : Json → String → Option Json
  | object fields, name => fields.lookup name
  | _, _ => none

/-- The outline of an operation. -/
def IsOperation (j : Json) : Prop := j.field? "type" = some (.string "BinaryOp")

/-- Every operation within the value has a first operand, which is no operation. -/
def Flat (j : Json) : Prop :=
  ∀ k : Json, k.Within j → k.IsOperation →
    ∃ first, k.field? "first" = some first ∧ ¬ first.IsOperation

@[simp]
theorem flat_integer (n : Int) : (integer n).Flat := by
  rintro _ ⟨⟩ ⟨⟩

@[simp]
theorem flat_number (x : Number) : (number x).Flat := by
  rintro _ ⟨⟩ ⟨⟩

@[simp]
theorem flat_string (s : String) : (string s).Flat := by
  rintro _ ⟨⟩ ⟨⟩

theorem flat_array {items : List Json} (h : ∀ j ∈ items, j.Flat) : (array items).Flat := by
  intro k hk hop
  cases hk with
  | here => cases hop
  | item hmem hk => exact h _ hmem k hk hop

theorem flat_object {fields : List (String × Json)}
    (hop : (object fields).IsOperation →
      ∃ first, (object fields).field? "first" = some first ∧ ¬ first.IsOperation)
    (h : ∀ f ∈ fields, f.2.Flat) : (object fields).Flat := by
  intro k hk hop'
  cases hk with
  | here => exact hop hop'
  | field hmem hk => exact h _ hmem k hk hop'

theorem isOperation_tagged {type : String} {fields : List (String × Json)} :
    (tagged type fields).IsOperation ↔ type = "BinaryOp" := by
  simp [IsOperation, field?, tagged]

theorem flat_tagged {type : String} {fields : List (String × Json)} (htype : type ≠ "BinaryOp")
    (h : ∀ f ∈ fields, f.2.Flat) : (tagged type fields).Flat :=
  flat_object (fun hop => absurd (isOperation_tagged.1 hop) htype)
    (List.forall_mem_cons.2 ⟨flat_string type, h⟩)

end Json

namespace Expr

theorem flat_chain {first : Json} {ls : List Json} (hop : ¬ first.IsOperation)
    (hfirst : first.Flat) (hls : ∀ l ∈ ls, l.Flat) : (chain first ls).Flat := by
  cases ls with
  | nil => exact hfirst
  | cons l ls =>
    refine Json.flat_object (fun _ => ⟨first, rfl, hop⟩) ?_
    simpa [hfirst] using Json.flat_array hls

namespace Typed

variable {e : Expr}

theorem not_isOperation_head (he : e.Typed) : ¬ e.head.IsOperation := by
  induction he with
  | number | text | var => exact mt Json.isOperation_tagged.1 (by decide)
  | binary _ _ ih _ => exact ih

theorem flat_spine (he : e.Typed) : e.head.Flat ∧ ∀ l ∈ e.links, l.Flat := by
  induction he with
  | number | text | var => simp [head, links, Json.flat_tagged]
  | @binary left right sign _ hr ihl ihr =>
    have hright : right.outline.Flat := by
      rw [outline_eq]
      exact flat_chain hr.not_isOperation_head ihr.1 ihr.2
    have hlink : (Json.object [("op", .string sign), ("right", right.outline)]).Flat := by
      refine Json.flat_object (fun hop => ?_) (by simp [hright])
      cases hop
    refine ⟨ihl.1, ?_⟩
    intro l hl
    rcases List.mem_append.1 hl with hl | hl
    · exact ihl.2 l hl
    · rw [List.mem_singleton.1 hl]
      exact hlink

theorem flat_outline (he : e.Typed) : e.outline.Flat := by
  rw [outline_eq]
  exact flat_chain he.not_isOperation_head he.flat_spine.1 he.flat_spine.2

end Typed

end Expr

theorem Statement.Typed.flat_outline {s : Statement} (hs : s.Typed) : s.outline.Flat := by
  cases hs with
  | assign he =>
    rw [outline_assign he]
    exact Json.flat_tagged (by decide) (by simp [he.flat_outline])
  | print he =>
    rw [outline_print he]
    exact Json.flat_tagged (by decide) (by simp [he.flat_outline])
  | goto =>
    rw [outline_goto]
    exact Json.flat_tagged (by decide) (by simp)
  | ifThen he =>
    rw [outline_ifThen he]
    exact Json.flat_tagged (by decide) (by simp [he.flat_outline])

/-- The label table is no operation, whatever the labels are called. -/
theorem Program.flat_labelOutline (p : Program) : p.labelOutline.Flat := by
  have hinteger : ∀ f ∈ p.labels.map fun label => (label.1, Json.integer label.2),
      ∃ n, f.2 = .integer n := by
    intro f hf
    obtain ⟨label, _, rfl⟩ := List.mem_map.1 hf
    exact ⟨label.2, rfl⟩
  rw [labelOutline_eq]
  refine Json.flat_object (fun hop => ?_) fun f hf => ?_
  · obtain ⟨front, back, heq, -⟩ := List.lookup_eq_some_iff.1 hop
    obtain ⟨n, hn⟩ := hinteger ("type", .string "BinaryOp") (by simp [heq])
    cases hn
  · obtain ⟨n, hn⟩ := hinteger f hf
    rw [hn]
    exact Json.flat_integer n

/-- **No operation is the first operand of a chain.** -/
theorem Program.Typed.flat_outline {p : Program} (hp : p.Typed) : p.outline.Flat := by
  have hstatements : (Json.array (p.statements.toList.map Statement.outline)).Flat := by
    refine Json.flat_array fun j hj => ?_
    obtain ⟨s, hs, rfl⟩ := List.mem_map.1 hj
    exact (hp s (Array.mem_toList_iff.1 hs)).flat_outline
  exact Json.flat_tagged (by decide) (by simp [hstatements, p.flat_labelOutline])

/-! ## The outline of a program -/

/-- **Outlines lose nothing.**  The outline of a program of any shape reads back
    as the program, by folding the links of each chain over its first operand;
    so programs have the same outline, with numbers as their texts, just if they
    are alike; and no operation is the first operand of a chain. -/
theorem outline_faithful {p : Program} (hp : p.Typed) :
    Program.ofOutline? p.outline = some p ∧
    (∀ q : Program, q.Typed →
      ((p.outline = q.outline → p = q) ∧
        (p.outline.written = q.outline.written ↔ p.Alike q))) ∧
    ∀ j : Json, j.Within p.outline → j.IsOperation →
      ∃ first, j.field? "first" = some first ∧ ¬ first.IsOperation := by
  refine ⟨Program.ofOutline?_outline hp, fun q hq => ⟨fun h => ?_, ?_⟩, hp.flat_outline⟩
  · have hread := Program.ofOutline?_outline hp
    rw [h, Program.ofOutline?_outline hq] at hread
    exact (Option.some.inj hread).symm
  · exact Program.written_outline_inj hp hq

/-- The same operands, nested on the left and on the right, and a label that is
    called `type`. -/
theorem outline_faithful_nested :
    let a : Expr := .var (.text "a")
    let b : Expr := .binary (.literal (.number (.zero true))) (.text "/") (.literal (.text "b"))
    let p : Program := ⟨#[.print (.binary (.binary a (.text "?") b) (.text "?") b)], [("type", 1)]⟩
    let q : Program := ⟨#[.print (.binary a (.text "?") (.binary b (.text "?") b))], [("type", 1)]⟩
    p.Typed ∧ q.Typed ∧ Program.ofOutline? p.outline = some p ∧
      p.outline.written ≠ q.outline.written ∧
      ∃ j first : Json, j.Within p.outline ∧ j.IsOperation ∧
        j.field? "first" = some first ∧ ¬ first.IsOperation := by
  intro a b p q
  have hb : b.Typed := .binary .number .text
  have hp : p.Typed := by
    intro s hs
    obtain rfl := List.mem_singleton.1 (Array.mem_toList_iff.2 hs)
    exact .print (.binary (.binary .var hb) hb)
  have hq : q.Typed := by
    intro s hs
    obtain rfl := List.mem_singleton.1 (Array.mem_toList_iff.2 hs)
    exact .print (.binary .var (.binary hb hb))
  obtain ⟨hread, hinj, hflat⟩ := outline_faithful hp
  refine ⟨hp, hq, hread, fun h => ?_, ?_⟩
  · -- one of the left operands is an operation, the other is none
    obtain ⟨hs, -⟩ := (hinj q hq).2.1 h
    cases hs with | cons hs _ => cases hs with | print he => cases he with | binary hl _ =>
      have hleft : Expr.Alike (.binary a (.text "?") b) (.var (.text "a")) := hl
      cases hleft
  · have hwithin : (Expr.binary (.binary a (.text "?") b) (.text "?") b).outline.Within p.outline :=
      .field (.tail _ (.head _)) (.item (.head _) (.field (.tail _ (.head _)) .here))
    obtain ⟨first, hfirst⟩ := hflat _ hwithin rfl
    exact ⟨_, first, hwithin, rfl, hfirst⟩

end GotoBasic
