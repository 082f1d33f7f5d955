/-
  Programs of numbers do not fail.

  * `Expr.NumbersOnly`, `Statement.NumbersOnly`: number literals and variables,
    joined by operators;
  * `Expr.evaluate_numbers`: such an expression has a number as its value while
    all variables do;
  * `Machine.execute_numbers`: such a statement is executed, and all variables
    have numbers as their values afterwards;
  * `numbersOnly_of_parse`: a text without quoted texts has a program of such
    statements;
  * `parse_step_numbers`: it may be stepped as often as one likes, and no step
    fails.
-/
import GotoBasic.Machine.Run
import GotoBasic.Proofs.Machine.Safety

namespace GotoBasic

/-! ## Numbers only -/

/-- Number literals and variables, joined by operators. -/
def Expr.NumbersOnly : Expr → Prop
  | literal v => ∃ x, v = .number x
  | var _ => True
  | binary left sign right =>
    left.NumbersOnly ∧ (∃ op : Operator, sign.toText = op.sign) ∧ right.NumbersOnly
  | stray _ => False

/-- The expressions that a statement holds. -/
def Statement.exprs : Statement → List Expr
  | assign _ e | print e | ifThen e _ => [e]
  | goto _ | stray _ => []

/-- A jump, or a statement whose expression holds numbers and variables only. -/
def Statement.NumbersOnly : Statement → Prop
  | assign _ e | print e | ifThen e _ => e.NumbersOnly
  | goto _ => True
  | stray _ => False

/-- All variables that are set have numbers as their values. -/
def Variables.NumbersOnly (vars : Variables) : Prop := ∀ b ∈ vars, ∃ x, b.2 = .number x

/-- What is assigned is a number, and what is printed the text of one. -/
def Effect.NumbersOnly : Effect → Prop
  | assigned _ v => ∃ x, v = .number x
  | printed line => ∃ x : Number, line = x.toText
  | nothing | jumped .. => True

theorem Statement.NumbersOnly.of_mem_exprs {s : Statement} (h : s.NumbersOnly) {e : Expr}
    (he : e ∈ s.exprs) : e.NumbersOnly := by
  cases s with
  | assign | print | ifThen =>
    rw [List.mem_singleton.1 he]
    exact h
  | goto | stray => simp [Statement.exprs] at he

/-! ## Operators -/

@[simp] theorem Operator.ofSign?_sign (op : Operator) : ofSign? op.sign = some op := by
  cases op <;> decide

/-- Every operator has a number for two numbers, also a division by zero. -/
theorem Operator.apply_numbers (op : Operator) (x y : Number) :
    ∃ z, op.apply (.number x) (.number y) = .ok (.number z) := by
  cases op with
  | equal | less | greater => exact ⟨.ofBool _, rfl⟩
  | plus | minus | times | divided => exact ⟨_, rfl⟩

/-- The operator of a pending operation is known, and its operand a number. -/
def Pending.NumbersOnly (p : Pending) : Prop :=
  (∃ op : Operator, p.sign = op.sign) ∧ ∃ x, p.right () = .ok (.number x)

theorem Pending.applyAll_numbers {later : List Pending} (h : ∀ p ∈ later, p.NumbersOnly)
    (x : Number) : ∃ z, applyAll (.number x) later = .ok (.number z) := by
  induction later generalizing x with
  | nil => exact ⟨x, rfl⟩
  | cons p later ih =>
    obtain ⟨⟨op, hop⟩, y, hy⟩ := h p (by simp)
    obtain ⟨z, hz⟩ := op.apply_numbers x y
    have hv : Value.apply p.sign (.number x) (.number y) = .ok (.number z) := by
      simp [Value.apply, hop, hz]
    simp only [applyAll, hy, hv]
    exact ih (fun q hq => h q (by simp [hq])) z

/-! ## Variables and expressions -/

section
variable {vars : Variables} (hv : vars.NumbersOnly)
include hv

/-- A variable that was never set is zero. -/
theorem Variables.NumbersOnly.value (name : Atom) : ∃ x, vars.value name = .number x := by
  rw [Variables.value]
  cases hg : vars.get? name with
  | none => exact ⟨_, rfl⟩
  | some v =>
    obtain ⟨b, hb, rfl⟩ := Bindings.mem_of_get? hg
    exact hv b hb

theorem Variables.NumbersOnly.put (name : Atom) (x : Number) :
    Variables.NumbersOnly (vars.put name (.number x)) := by
  intro b hb
  rcases Bindings.mem_put hb with hb | hb
  · exact hv b hb
  · exact ⟨x, hb⟩

theorem Expr.evaluateChain_numbers {e : Expr} (he : e.NumbersOnly) {later : List Pending}
    (hl : ∀ p ∈ later, p.NumbersOnly) : ∃ z, e.evaluateChain vars later = .ok (.number z) := by
  induction e generalizing later with
  | literal v =>
    obtain ⟨x, rfl⟩ := he
    exact Pending.applyAll_numbers hl x
  | var name =>
    obtain ⟨x, hx⟩ := hv.value name
    rw [evaluateChain, hx]
    exact Pending.applyAll_numbers hl x
  | binary left sign right ih₁ ih₂ =>
    obtain ⟨h₁, hsign, h₂⟩ := he
    refine ih₁ h₁ fun p hp => ?_
    rcases List.mem_cons.1 hp with rfl | hp
    · exact ⟨hsign, ih₂ h₂ (by simp)⟩
    · exact hl p hp
  | stray => exact he.elim

/-- **An expression of numbers has a number as its value.** -/
theorem Expr.evaluate_numbers {e : Expr} (he : e.NumbersOnly) :
    ∃ x, e.evaluate vars = .ok (.number x) :=
  evaluateChain_numbers hv he (by simp)

end

/-! ## Machines -/

namespace Machine

variable {p : Program} {m : Machine} {s : Statement}

/-- **Executing a statement of numbers does not fail.** -/
theorem execute_numbers (hv : m.vars.NumbersOnly) (hs : s.NumbersOnly) :
    ∃ effect next, m.execute s = .ran effect next ∧ effect.NumbersOnly ∧
      next.vars.NumbersOnly := by
  cases s with
  | assign name e =>
    obtain ⟨x, hx⟩ := Expr.evaluate_numbers hv hs
    exact ⟨.assigned name (.number x), _, by rw [execute, withValue, hx], ⟨x, rfl⟩, hv.put name x⟩
  | print e =>
    obtain ⟨x, hx⟩ := Expr.evaluate_numbers hv hs
    exact ⟨.printed x.toText, m, by rw [execute, withValue, hx]; rfl, ⟨x, rfl⟩, hv⟩
  | goto label =>
    rw [execute]
    split
    · exact ⟨_, _, rfl, trivial, hv⟩
    · exact ⟨_, _, rfl, trivial, hv⟩
  | ifThen condition label =>
    obtain ⟨x, hx⟩ := Expr.evaluate_numbers hv hs
    rw [execute]
    split
    · exact ⟨_, _, rfl, trivial, hv⟩
    · rw [withValue, hx]
      simp only [Value.toNumber]
      split
      · exact ⟨_, _, rfl, trivial, hv⟩
      · exact ⟨_, _, rfl, trivial, hv⟩
  | stray => exact hs.elim

/-- A sound machine halts, or there is a statement at its counter. -/
theorem Sound.step_cases (hp : p.Proper) (h : m.Sound p) :
    m.step = .halted ∨ ∃ s ∈ p.statements, m.running = true ∧ m.statement? = some s := by
  by_cases hr : m.running = true
  · right
    cases hs : m.statement? with
    | none =>
      have hastray : m.step = .astray := by rw [Machine.step, if_pos hr, hs]
      have hsound := h.step hp
      rw [hastray] at hsound
      exact hsound.elim
    | some s =>
      obtain ⟨n, -, hn⟩ := Option.bind_eq_some_iff.1 hs
      rw [h.program] at hn
      exact ⟨s, Array.mem_of_getElem? hn, hr, rfl⟩
  · left
    rw [Machine.step, if_neg hr]

theorem step_numbers (hv : m.vars.NumbersOnly) (hr : m.running = true)
    (hst : m.statement? = some s) (hs : s.NumbersOnly) :
    ∃ effect next, m.step = .ran effect next ∧ effect.NumbersOnly ∧ next.vars.NumbersOnly := by
  rw [step, if_pos hr, hst]
  exact execute_numbers hv hs

section
variable (hp : p.Proper) (hn : ∀ s ∈ p.statements, s.NumbersOnly)
include hp hn

theorem Sound.next_numbers (h : m.Sound p) (hv : m.vars.NumbersOnly) :
    m.next.vars.NumbersOnly := by
  rw [Machine.next]
  rcases h.step_cases hp with hstep | ⟨s, hs, hr, hst⟩
  · rw [hstep]
    exact hv
  · obtain ⟨effect, next, hstep, -, hnext⟩ := step_numbers hv hr hst (hn s hs)
    rw [hstep]
    exact hnext

theorem Sound.after_numbers (h : m.Sound p) (hv : m.vars.NumbersOnly) (n : Nat) :
    (m.after n).vars.NumbersOnly := by
  induction n with
  | zero => exact hv
  | succ n ih => exact (h.after hp n).next_numbers hp hn ih

end

end Machine

/-! ## Texts without quoted texts -/

theorem Derives.numbersOnly {ts : List Token} {e : Expr} (h : Derives .expr ts e)
    (hs : ∀ t ∈ ts, t.Spelled ∧ t.kind ≠ .string) : e.NumbersOnly := by
  refine h.holds (fun _ _ => trivial) (fun _ _ _ => ⟨_, rfl⟩) (fun ht hk => absurd hk ht.2) ?_ hs
    (by simp)
  intro t left right ht hj hl hr
  obtain ⟨op, hop⟩ := Option.isSome_iff_exists.1 (isSome_ofSign? hj ht.1)
  have hsign : op.sign = t.text := by simpa using List.find?_some hop
  exact ⟨hl, ⟨op, hsign.symm⟩, hr⟩

theorem DerivesStatement.numbersOnly {ts : List Token} {s : Statement}
    (h : DerivesStatement ts s) (hs : ∀ t ∈ ts, t.Spelled ∧ t.kind ≠ .string) :
    s.NumbersOnly := by
  cases h with
  | assign _ _ hts | print _ hts | ifThen _ hts _ _ =>
    exact hts.numbersOnly fun t ht => hs t (by simp [ht])
  | goto => trivial

/-- **A text without quoted texts has a program of numbers.** -/
theorem numbersOnly_of_parse {source : String} {p : Program} (h : Program.parse source = .ok p)
    (hq : ∀ t ∈ Token.scan source, t.kind ≠ .string) : ∀ s ∈ p.statements, s.NumbersOnly := by
  obtain ⟨items, hder, -, rfl⟩ := ofTokens_eq_ok_iff.1 h
  intro s hs
  have hitem : .statement s ∈ items := by
    rw [← Array.mem_toList_iff, Program.statements_ofItems, List.mem_filterMap] at hs
    obtain ⟨item, hitem, heq⟩ := hs
    cases item with
    | label => cases heq
    | statement s' =>
      cases heq
      exact hitem
  obtain ⟨us, hus, hst⟩ := hder.exists_derivesStatement hitem
  refine hst.numbersOnly fun t ht => ?_
  have hscan : t ∈ Token.scan source := List.takeWhile_subset _ (hus ht)
  exact ⟨spelled_of_mem_scan hscan, hq t hscan⟩

/-- **A text without quoted texts has a program that does not fail**: however
    often it is stepped, the values of its variables and expressions are
    numbers, and what it prints is the text of a number.  One step of any
    machine is like that if the values of its variables are numbers and the
    statement at its counter has numbers only. -/
theorem parse_step_numbers :
    (∀ source p, Program.parse source = .ok p →
      (∀ t ∈ Token.scan source, t.kind ≠ .string) →
      ∀ steps,
        ((Machine.start p).after steps).vars.NumbersOnly ∧
        (∀ s ∈ p.statements, ∀ e ∈ s.exprs,
          ∃ x, e.evaluate ((Machine.start p).after steps).vars = .ok (.number x)) ∧
        (((Machine.start p).after steps).step = .halted ∨
          ∃ effect next, ((Machine.start p).after steps).step = .ran effect next ∧
            effect.NumbersOnly)) ∧
    ∀ (m : Machine) (s : Statement), m.vars.NumbersOnly → m.running = true →
      m.statement? = some s → s.NumbersOnly →
      (∀ e ∈ s.exprs, ∃ x, e.evaluate m.vars = .ok (.number x)) ∧
      ∃ effect next, m.step = .ran effect next ∧ effect.NumbersOnly ∧ next.vars.NumbersOnly := by
  constructor
  · intro source p h hq steps
    have hp := proper_of_parse h
    have hn := numbersOnly_of_parse h hq
    have hm := (Machine.sound_start p).after hp steps
    have hv : ((Machine.start p).after steps).vars.NumbersOnly :=
      (Machine.sound_start p).after_numbers hp hn (by simp [Machine.start, Variables.NumbersOnly])
        steps
    refine ⟨hv, fun s hs e he => Expr.evaluate_numbers hv ((hn s hs).of_mem_exprs he), ?_⟩
    rcases hm.step_cases hp with hstep | ⟨s, hs, hr, hst⟩
    · exact .inl hstep
    · obtain ⟨effect, next, hstep, heffect, -⟩ := Machine.step_numbers hv hr hst (hn s hs)
      exact .inr ⟨effect, next, hstep, heffect⟩
  · intro m s hv hr hst hs
    exact ⟨fun e he => Expr.evaluate_numbers hv (hs.of_mem_exprs he),
      Machine.step_numbers hv hr hst hs⟩

/-- Thirds that are printed for ever, and a division by a variable that was
    never set. -/
theorem parse_step_numbers_division :
    (∃ p next x, Program.parse ":loop print i / 3 i = i + 1 goto loop" = .ok p ∧
      ((Machine.start p).after 3).step = .ran (.printed "0.3333333333333333") next ∧
      "0.3333333333333333" = Number.toText x ∧
      ((Machine.start p).after 3).vars.NumbersOnly) ∧
    ∃ effect next, Machine.step
        ⟨⟨#[.assign (.text "x") (.binary (.var (.text "x")) (.text "/") (.var (.text "y")))], []⟩,
          [(.text "x", .number (.ofBool true))], 0⟩ = .ran effect next ∧
      next.vars.NumbersOnly := by
  constructor
  · have hq : ∀ t ∈ Token.scan ":loop print i / 3 i = i + 1 goto loop", t.kind ≠ .string := by
      have hall : ((Token.scan ":loop print i / 3 i = i + 1 goto loop").all
          fun t => t.kind != .string) = true := by decide +kernel
      simpa using hall
    have hf : ((Program.parse ":loop print i / 3 i = i + 1 goto loop").toOption.bind
        fun p => ((Machine.start p).after 3).step.line?) = some "0.3333333333333333" := by
      decide +kernel
    cases hp : Program.parse ":loop print i / 3 i = i + 1 goto loop" with
    | error e => simp [hp, Except.toOption] at hf
    | ok p =>
      have hline : ((Machine.start p).after 3).step.line? = some "0.3333333333333333" := by
        simpa [hp, Except.toOption] using hf
      obtain ⟨hv, -, hstep | ⟨effect, next, hstep, heffect⟩⟩ := parse_step_numbers.1 _ p hp hq 3
      · simp [hstep, Outcome.line?] at hline
      · cases effect with
        | printed line =>
          obtain rfl : line = "0.3333333333333333" := by
            simpa [hstep, Outcome.line?, Effect.line?] using hline
          obtain ⟨x, hx⟩ := heffect
          exact ⟨p, next, x, rfl, hstep, hx, hv⟩
        | _ => simp [hstep, Outcome.line?, Effect.line?] at hline
  · obtain ⟨-, effect, next, hstep, -, hnext⟩ := parse_step_numbers.2
      ⟨⟨#[.assign (.text "x") (.binary (.var (.text "x")) (.text "/") (.var (.text "y")))], []⟩,
        [(.text "x", .number (.ofBool true))], 0⟩ _ (by simp [Variables.NumbersOnly]) rfl rfl
      ⟨trivial, ⟨.divided, rfl⟩, trivial⟩
    exact ⟨effect, next, hstep, hnext⟩

end GotoBasic
