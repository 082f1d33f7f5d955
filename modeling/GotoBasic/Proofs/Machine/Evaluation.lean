/-
  Evaluating operand by operand.

  * `Expr.meaning`: the value of an expression by plain recursion, the left
    operand before the right one and both before their operator;
  * `Expr.evaluateChain_eq_bind`: walking down the left side of an expression
    first gives its meaning, and then applies what is pending;
  * `evaluate_eq_meaning`: expressions evaluate to their meaning, they fail
    with the leftmost failure, and nothing else happens to the machine.
-/
import GotoBasic.Machine.Step

namespace GotoBasic

namespace Expr

/-- The value of an expression, operand by operand. -/
def meaning (vars : Variables) : Expr → Except RunError Value
  | literal v => .ok v
  | var name => .ok (vars.value name)
  | binary left sign right => do
    let l ← left.meaning vars
    let r ← right.meaning vars
    l.apply sign.toText r
  | stray item => .error (.notExpression item.kind)

/-- What is pending is applied to the meaning of the expression, and not
    looked at if there is none. -/
theorem evaluateChain_eq_bind (vars : Variables) (e : Expr) (later : List Pending) :
    e.evaluateChain vars later = (e.meaning vars).bind (Pending.applyAll · later) := by
  -- the pending operators grow on the way down, so `later` is arbitrary
  induction e generalizing later with
  | literal | var | stray => rfl
  | binary left sign right ih₁ ih₂ =>
    have hright : right.evaluateChain vars [] = right.meaning vars := by
      rw [ih₂]
      cases right.meaning vars <;> rfl
    rw [evaluateChain, ih₁, meaning]
    cases left.meaning vars with
    | error err => rfl
    | ok l =>
      simp only [Except.bind, bind, Pending.applyAll, hright]
      cases right.meaning vars with
      | error err => rfl
      | ok r =>
        dsimp only
        cases l.apply sign.toText r <;> rfl

theorem evaluate_eq (vars : Variables) (e : Expr) : e.evaluate vars = e.meaning vars := by
  rw [evaluate, evaluateChain_eq_bind]
  cases e.meaning vars <;> rfl

/-- The failure of an operation is that of its left operand, else that of its
    right operand, else that of its operator. -/
theorem meaning_binary_eq_error_iff {vars : Variables} {left right : Expr} {sign : Atom}
    {err : RunError} : (binary left sign right).meaning vars = .error err ↔
      left.meaning vars = .error err ∨ ∃ l, left.meaning vars = .ok l ∧
        (right.meaning vars = .error err ∨
          ∃ r, right.meaning vars = .ok r ∧ l.apply sign.toText r = .error err) := by
  simp only [meaning, bind, Except.bind]
  cases left.meaning vars with
  | error => simp
  | ok l => cases right.meaning vars <;> simp

end Expr

/-- Goes on with a result; a failure leaves the machine as it is. -/
def Machine.followUp {α : Type} (m : Machine) (result : Except RunError α) (next : α → Outcome) :
    Outcome :=
  match result with
  | .ok a => next a
  | .error err => .failed err m

theorem Machine.withValue_eq (m : Machine) (e : Expr) (next : Value → Outcome) :
    m.withValue e next = m.followUp (e.meaning m.vars) next := by
  rw [withValue, e.evaluate_eq]
  cases e.meaning m.vars <;> rfl

theorem Machine.followUp_bind {α β : Type} (m : Machine) (result : Except RunError α)
    (f : α → Except RunError β) (next : β → Outcome) :
    m.followUp (result >>= f) next = m.followUp result fun a => m.followUp (f a) next := by
  cases result <;> rfl

/-- **Expressions evaluate to their meaning**, with whatever operators and
    stray items they hold.  An operation fails with the failure of its left
    operand, else with that of its right operand, else with that of its
    operator.  A statement goes on with the meaning of its expression in the
    same machine: printing changes nothing, an assignment one variable, a
    conditional jump the counter, and a failure nothing at all. -/
theorem evaluate_eq_meaning :
    (∀ (vars : Variables) (e : Expr), e.evaluate vars = e.meaning vars) ∧
    (∀ (vars : Variables) (left : Expr) (sign : Atom) (right : Expr) (err : RunError),
      (Expr.binary left sign right).evaluate vars = .error err ↔
        left.evaluate vars = .error err ∨ ∃ l, left.evaluate vars = .ok l ∧
          (right.evaluate vars = .error err ∨
            ∃ r, right.evaluate vars = .ok r ∧ l.apply sign.toText r = .error err)) ∧
    ∀ (m : Machine) (e : Expr),
      (m.execute (.print e) =
        m.followUp (e.meaning m.vars >>= Value.toText) fun line => .ran (.printed line) m) ∧
      (∀ name, m.execute (.assign name e) =
        m.followUp (e.meaning m.vars) fun v =>
          .ran (.assigned name v) { m with vars := m.vars.put name v }) ∧
      ∀ label, m.execute (.ifThen e label) =
        match m.program.target? label with
        | none => .ran .nothing m
        | some target => m.followUp (e.meaning m.vars >>= Value.toNumber) fun x =>
            if x.isZero then .ran .nothing m else m.jumpTo label target := by
  refine ⟨Expr.evaluate_eq, fun vars left sign right err => ?_, fun m e =>
    ⟨?_, fun name => m.withValue_eq e _, fun label => ?_⟩⟩
  · simp only [Expr.evaluate_eq]
    exact Expr.meaning_binary_eq_error_iff
  · rw [m.followUp_bind]
    refine (m.withValue_eq e _).trans (congrArg _ (funext fun v => ?_))
    cases v.toText <;> rfl
  · rw [Machine.execute]
    cases m.program.target? label with
    | none => rfl
    | some target =>
      simp only [m.followUp_bind]
      refine (m.withValue_eq e _).trans (congrArg _ (funext fun v => ?_))
      cases v.toNumber <;> rfl

-- An operator that is unknown is met before the stray item behind it.
example : (Expr.binary (.binary (.var (.text "x")) (.text "?") (.var (.text "y"))) (.text "+")
    (.stray (.atom .nothing))).evaluate [] = .error (.unknownOperator "?") := by
  rfl

end GotoBasic
