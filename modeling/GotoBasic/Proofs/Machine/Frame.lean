/-
  What a step changes, and what it leaves alone.

  * `Machine.Executes m s e next`: the rules of execution; the statement `s` at
    the counter of `m` does `e`, and `next` is the machine then;
  * `Machine.executes_of_ran`, `Machine.eq_past_of_failed`: a step follows the
    rules, or it fails and moves the counter on, but nothing else;
  * `Machine.binds_next_iff`, `Machine.binds_after_iff`: the names that are
    bound are those of the assignments that were executed;
  * `Machine.BreaksAfter`: so many steps succeed, and the next one does not;
    `Machine.BreaksAfter.run_eq`: this is what breaks off a run;
  * `step_frame`: all this for whatever machine, also one that was put together
    by hand.
-/
import GotoBasic.Proofs.Bindings
import GotoBasic.Proofs.Machine.Steps

namespace GotoBasic

/-- The label that a statement may jump to. -/
def Statement.label? : Statement → Option Atom
  | goto label | ifThen _ label => some label
  | assign .. | print _ | stray _ => none

/-- The name is bound. -/
def Variables.Binds (vars : Variables) (name : Atom) : Prop := (vars.get? name).isSome = true

deriving instance DecidableEq for Ending

/-- The run was broken off. -/
def Ending.breaksOff : Ending → Bool
  | failed _ | astray _ => true
  | finished | unfinished => false

namespace Machine

variable {m m' next : Machine} {s : Statement} {e : Effect} {es : List Effect}
  {error : RunError} {ending : Ending} {expr : Expr} {k fuel : Nat}

/-! ## The rules of execution -/

/-- The machine behind its next statement. -/
def past (m : Machine) : Machine := { m with counter := m.counter + 1 }

/-- The statement `s` of the machine `m` is executed: what it does, and the
    machine then. -/
inductive Executes (m : Machine) : Statement → Effect → Machine → Prop where
  | assign {name : Atom} {expr : Expr} {v : Value} : expr.evaluate m.vars = .ok v →
      Executes m (.assign name expr) (.assigned name v)
        { m.past with vars := m.vars.put name v }
  | print {expr : Expr} {v : Value} {line : String} : expr.evaluate m.vars = .ok v →
      v.toText = .ok line → Executes m (.print expr) (.printed line) m.past
  | goto {label : Atom} {target : Int} : m.program.target? label = some target →
      Executes m (.goto label) (.jumped m.counter label target) { m with counter := target }
  | gotoNowhere {label : Atom} : m.program.target? label = none →
      Executes m (.goto label) .nothing m.past
  | ifThen {condition : Expr} {label : Atom} {target : Int} {v : Value} {x : Number} :
      m.program.target? label = some target → condition.evaluate m.vars = .ok v →
      v.toNumber = .ok x → x.isZero = false →
      Executes m (.ifThen condition label) (.jumped m.counter label target)
        { m with counter := target }
  | ifZero {condition : Expr} {label : Atom} {target : Int} {v : Value} {x : Number} :
      m.program.target? label = some target → condition.evaluate m.vars = .ok v →
      v.toNumber = .ok x → x.isZero = true → Executes m (.ifThen condition label) .nothing m.past
  /-- the condition of a jump that leads nowhere is not evaluated -/
  | ifNowhere {condition : Expr} {label : Atom} : m.program.target? label = none →
      Executes m (.ifThen condition label) .nothing m.past

theorem withValue_eq_ran {f : Value → Outcome} (h : m.withValue expr f = .ran e next) :
    ∃ v, expr.evaluate m.vars = .ok v ∧ f v = .ran e next := by
  unfold withValue at h
  split at h
  · rename_i v hv
    exact ⟨v, hv, h⟩
  · cases h

theorem withValue_eq_failed {f : Value → Outcome} (h : m.withValue expr f = .failed error next)
    (hf : ∀ v, f v = .failed error next → next = m) : next = m := by
  unfold withValue at h
  split at h
  · exact hf _ h
  · cases h
    rfl

theorem jumpTo_past (m : Machine) (label : Atom) (target : Int) :
    m.past.jumpTo label target = .ran (.jumped m.counter label target)
      { m with counter := target } := by
  simp [jumpTo, past]

theorem executes_of_execute (h : m.past.execute s = .ran e next) : m.Executes s e next := by
  cases s with
  | assign name expr =>
    obtain ⟨v, hv, heq⟩ := withValue_eq_ran h
    cases heq
    exact .assign hv
  | print expr =>
    obtain ⟨v, hv, heq⟩ := withValue_eq_ran h
    split at heq
    · cases heq
    · rename_i hline
      cases heq
      exact .print hv hline
  | goto label =>
    simp only [execute] at h
    split at h
    · rename_i ht
      rw [jumpTo_past] at h
      cases h
      exact .goto ht
    · rename_i ht
      cases h
      exact .gotoNowhere ht
  | ifThen condition label =>
    simp only [execute] at h
    split at h
    · rename_i ht
      cases h
      exact .ifNowhere ht
    · rename_i ht
      obtain ⟨v, hv, heq⟩ := withValue_eq_ran h
      split at heq
      · cases heq
      · rename_i hx
        split at heq
        · rename_i hz
          cases heq
          exact .ifZero ht hv hx hz
        · rename_i hz
          rw [jumpTo_past] at heq
          cases heq
          exact .ifThen ht hv hx (by simpa using hz)
  | stray => cases h

/-- A statement that fails leaves the machine as it is. -/
theorem eq_of_execute_failed (h : m.execute s = .failed error next) : next = m := by
  cases s with
  | assign => exact withValue_eq_failed h fun v hv => by cases hv
  | print =>
    refine withValue_eq_failed h fun v hv => ?_
    split at hv
    · cases hv
      rfl
    · cases hv
  | goto =>
    simp only [execute] at h
    split at h <;> cases h
  | ifThen =>
    simp only [execute] at h
    split at h
    · cases h
    · refine withValue_eq_failed h fun v hv => ?_
      split at hv
      · cases hv
        rfl
      · split at hv <;> cases hv
  | stray =>
    cases h
    rfl

/-- A step that executes a statement, or fails to, executes the one at the
    counter. -/
theorem step_eq_execute (h : m.step ≠ .halted) (h' : m.step ≠ .astray) :
    ∃ s, m.statement? = some s ∧ m.step = m.past.execute s := by
  cases hr : m.running with
  | false => exact absurd (step_eq_halted_iff.2 hr) h
  | true =>
    cases hs : m.statement? with
    | none => exact absurd (by rw [step, if_pos hr, hs]) h'
    | some s =>
      refine ⟨s, rfl, ?_⟩
      rw [step, if_pos hr, hs]
      rfl

/-- **A step follows the rules.** -/
theorem executes_of_ran (h : m.step = .ran e next) :
    ∃ s, m.statement? = some s ∧ m.Executes s e next := by
  obtain ⟨s, hs, heq⟩ := @step_eq_execute m (by simp [h]) (by simp [h])
  exact ⟨s, hs, executes_of_execute (heq ▸ h)⟩

/-- **A step that fails moves the counter on**, but nothing else. -/
theorem eq_past_of_failed (h : m.step = .failed error next) : next = m.past := by
  obtain ⟨s, -, heq⟩ := @step_eq_execute m (by simp [h]) (by simp [h])
  exact eq_of_execute_failed (heq ▸ h)

/-- There is no statement at a counter that lies before the first one. -/
theorem statement?_eq_none_iff (hr : m.running = true) :
    m.statement? = none ↔ m.counter < -m.program.statements.size := by
  have hlt : m.counter < m.program.statements.size := by simpa [running] using hr
  unfold statement? Index.position?
  generalize hpos : (if m.counter < 0 then m.counter + m.program.statements.size else m.counter) = i
  have hi : 0 ≤ i ↔ ¬ m.counter < -m.program.statements.size := by
    split at hpos <;> omega
  have hsize : i < m.program.statements.size := by split at hpos <;> omega
  by_cases h0 : 0 ≤ i
  · simp [h0, hsize, hi.1 h0]
  · simp [h0, not_not.1 (mt hi.2 h0)]

theorem step_eq_astray_iff : m.step = .astray ↔ m.counter < -m.program.statements.size := by
  cases hr : m.running with
  | true => rw [step_eq_astray_iff_of_running hr, statement?_eq_none_iff hr]
  | false =>
    have hle : ¬ m.counter < m.program.statements.size := by simpa [running] using hr
    rw [step_eq_halted_iff.2 hr]
    simp only [reduceCtorEq, false_iff]
    omega

/-! ## What the rules leave alone -/

/-- What a step from `m` that executes `s` may have changed in `next`: the
    counter, and by an assignment one variable; then it has not printed. -/
structure Frame (m : Machine) (s : Statement) (line? : Option String) (next : Machine) : Prop where
  program : next.program = m.program
  counter : next.counter = m.counter + 1 ∨
    ∃ label, s.label? = some label ∧ m.program.target? label = some next.counter
  vars : next.vars = m.vars ∨ line? = none ∧ ∃ name expr v, s = .assign name expr ∧
    next.vars = m.vars.put name v ∧
    ∀ other, (name == other) = false → next.vars.get? other = m.vars.get? other

theorem Executes.frame (h : m.Executes s e next) : m.Frame s e.line? next := by
  cases h with
  | assign =>
    exact ⟨rfl, .inl rfl, .inr ⟨rfl, _, _, _, rfl, rfl, fun _ => m.vars.get?_put_of_ne _⟩⟩
  | print | gotoNowhere | ifZero | ifNowhere => exact ⟨rfl, .inl rfl, .inl rfl⟩
  | goto ht | ifThen ht => exact ⟨rfl, .inr ⟨_, rfl, ht⟩, .inl rfl⟩

/-! ## The names that are bound -/

/-- The next statement is executed. -/
def Succeeds (m : Machine) : Prop := ∃ e next, m.step = .ran e next

/-- The next statement is an assignment to the name, and is executed. -/
def Assigns (m : Machine) (name : Atom) : Prop :=
  m.Succeeds ∧ ∃ other expr, m.statement? = some (.assign other expr) ∧ (other == name) = true

theorem next_of_ran (h : m.step = .ran e next) : m.next = next := by
  simp [Machine.next, h]

/-- What is bound after a step was bound before, or is assigned by it. -/
theorem binds_next_iff (m : Machine) (name : Atom) :
    m.next.vars.Binds name ↔ m.Assigns name ∨ m.vars.Binds name := by
  have hfails (h : ¬ m.Succeeds) (hv : m.next.vars = m.vars) :
      m.next.vars.Binds name ↔ m.Assigns name ∨ m.vars.Binds name := by
    simp [Assigns, h, hv]
  cases hstep : m.step with
  | halted | astray => exact hfails (by simp [Succeeds, hstep]) (by simp [Machine.next, hstep])
  | failed error next =>
    refine hfails (by simp [Succeeds, hstep]) ?_
    simp [Machine.next, hstep, eq_past_of_failed hstep, past]
  | ran e next =>
    have hs : m.Succeeds := ⟨e, next, hstep⟩
    obtain ⟨s, hst, hex⟩ := executes_of_ran hstep
    rw [next_of_ran hstep]
    cases hex with
    | assign => simp [Assigns, hs, hst, Variables.Binds, Bindings.isSome_get?_put]
    | print | goto | gotoNowhere | ifThen | ifZero | ifNowhere => simp [Assigns, hst, past]

/-- **The names that are bound** after so many steps, failed ones among them,
    are those of the assignments that were executed. -/
theorem binds_after_iff (p : Program) (n : Nat) (name : Atom) :
    ((start p).after n).vars.Binds name ↔ ∃ k < n, ((start p).after k).Assigns name := by
  induction n with
  | zero => simp [after, start, Variables.Binds, Bindings.get?]
  | succ n ih =>
    rw [after, binds_next_iff, ih]
    simp only [Nat.lt_succ_iff_lt_or_eq, or_and_right, exists_or, exists_eq_left]
    exact or_comm

/-! ## Runs that break off -/

/-- How a run ends that cannot execute the next statement. -/
def breakdown? (m : Machine) : Option Ending :=
  match m.step with
  | .failed error _ => some (.failed error)
  | .astray => some (.astray m.counter)
  | .halted | .ran .. => none

/-- The first `k` steps succeed, and the next one does not. -/
structure BreaksAfter (m : Machine) (k : Nat) (ending : Ending) : Prop where
  succeeds : ∀ j < k, (m.after j).Succeeds
  breaks : (m.after k).breakdown? = some ending

/-- The lines that the first steps print. -/
def printed (m : Machine) : Nat → List String
  | 0 => []
  | n + 1 => m.printed n ++ (m.after n).step.line?.toList

theorem after_succ (m : Machine) (n : Nat) : m.after (n + 1) = m.next.after n := by
  induction n with
  | zero => rfl
  | succ n ih =>
    rw [after, ih]
    rfl

/-- Steps that succeed are executed one after the other. -/
theorem exists_steps (h : ∀ j < k, (m.after j).Succeeds) :
    ∃ es, m.Steps es (m.after k) ∧ es.length = k ∧ es.filterMap Effect.line? = m.printed k := by
  induction k with
  | zero => exact ⟨[], .refl m, rfl, rfl⟩
  | succ k ih =>
    obtain ⟨es, hes, hlength, hlines⟩ := ih fun j hj => h j (by omega)
    obtain ⟨e, next, hstep⟩ := h k (by omega)
    have hnext : m.after (k + 1) = next := next_of_ran hstep
    refine ⟨es ++ [e], hnext ▸ hes.snoc hstep, by simp [hlength], ?_⟩
    rw [List.filterMap_append, hlines, printed, hstep]
    cases hline : e.line? <;> simp [Outcome.line?, hline]

theorem runFrom_of_breakdown (h : m.breakdown? = some ending) (past : List Effect) (fuel : Nat) :
    runFrom past (fuel + 1) m = ⟨m.next, past.reverse, ending⟩ := by
  unfold breakdown? at h
  rw [runFrom, Machine.next]
  cases hstep : m.step with
  | halted | ran => simp [hstep] at h
  | failed | astray =>
    rw [hstep] at h
    cases h
    rfl

/-- **A run breaks off at the first step that does not succeed**, with what the
    steps before have done. -/
theorem BreaksAfter.run_eq (h : m.BreaksAfter k ending) (hk : k < fuel) :
    ∃ es, m.run fuel = ⟨m.after (k + 1), es, ending⟩ ∧ es.filterMap Effect.line? = m.printed k := by
  obtain ⟨es, hes, rfl, hlines⟩ := exists_steps h.succeeds
  obtain ⟨left, rfl⟩ := Nat.exists_eq_add_of_lt hk
  refine ⟨es, ?_, hlines⟩
  rw [run, Nat.add_assoc, runFrom_of_steps hes, runFrom_of_breakdown h.breaks]
  simp [after]

theorem BreaksAfter.of_next (hstep : m.step = .ran e next) (h : next.BreaksAfter k ending) :
    m.BreaksAfter (k + 1) ending := by
  have hafter : ∀ j, m.after (j + 1) = next.after j := by
    intro j
    rw [after_succ, next_of_ran hstep]
  constructor
  · intro j hj
    cases j with
    | zero => exact ⟨e, next, hstep⟩
    | succ j =>
      rw [hafter]
      exact h.succeeds j (by omega)
  · rw [hafter]
    exact h.breaks

/-- Only such a step breaks off a run. -/
theorem exists_breaksAfter {past : List Effect}
    (h : (runFrom past fuel m).ending.breaksOff = true) :
    ∃ k < fuel, m.BreaksAfter k (runFrom past fuel m).ending := by
  induction fuel generalizing past m with
  | zero => cases h
  | succ fuel ih =>
    rw [runFrom] at h ⊢
    cases hstep : m.step with
    | halted =>
      rw [hstep] at h
      cases h
    | ran e next =>
      rw [hstep] at h
      obtain ⟨k, hk, hb⟩ := ih h
      exact ⟨k + 1, by omega, hb.of_next hstep⟩
    | failed | astray => exact ⟨0, by omega, by simp, by simp [breakdown?, after, hstep]⟩

/-- The variables stay as they are where a run breaks off. -/
theorem vars_next_of_breakdown (h : m.breakdown? = some ending) : m.next.vars = m.vars := by
  unfold breakdown? at h
  cases hstep : m.step with
  | halted | ran => simp [hstep] at h
  | failed error next => simp [Machine.next, hstep, eq_past_of_failed hstep, past]
  | astray => simp [Machine.next, hstep]

end Machine

/-- **What a step changes**, whatever the machine.  One that does not run, or
    whose counter lies before the first statement, stays as it is.  A statement
    that fails prints nothing and moves the counter on, and no more.  One that
    is executed prints a line or binds a variable, but not both, or neither; it
    moves the counter on, or to where its label points.

    So the names that are bound after any number of steps, failed ones among
    them, are those of the assignments that were executed; and a run that
    breaks off after `k` steps has printed what they printed, and has the
    variables that they left. -/
theorem step_frame :
    (∀ m : Machine,
      match m.step with
      | .halted => m.running = false ∧ m.step.line? = none ∧ m.next = m
      | .astray => m.counter < -m.program.statements.size ∧ m.step.line? = none ∧ m.next = m
      | .failed .. => m.step.line? = none ∧ m.next = { m with counter := m.counter + 1 }
      | .ran .. => ∃ s, m.statement? = some s ∧ m.Frame s m.step.line? m.next) ∧
    (∀ (p : Program) (n : Nat) (name : Atom), ((Machine.start p).after n).vars.Binds name ↔
      ∃ k < n, ((Machine.start p).after k).Assigns name) ∧
    ∀ (m : Machine) (fuel : Nat),
      ((m.run fuel).ending.breaksOff = true → ∃ k < fuel, m.BreaksAfter k (m.run fuel).ending) ∧
      ∀ (k : Nat) (ending : Ending), m.BreaksAfter k ending → k < fuel →
        (m.run fuel).ending = ending ∧ (m.run fuel).lines = m.printed k ∧
        (m.run fuel).machine.vars = (m.after k).vars := by
  refine ⟨fun m => ?_, Machine.binds_after_iff, fun m fuel =>
    ⟨Machine.exists_breaksAfter, fun k ending hb hk => ?_⟩⟩
  · cases hstep : m.step with
    | halted => exact ⟨Machine.step_eq_halted_iff.1 hstep, rfl, by simp [Machine.next, hstep]⟩
    | astray => exact ⟨Machine.step_eq_astray_iff.1 hstep, rfl, by simp [Machine.next, hstep]⟩
    | failed error next =>
      refine ⟨rfl, ?_⟩
      rw [Machine.next, hstep]
      exact Machine.eq_past_of_failed hstep
    | ran e next =>
      obtain ⟨s, hs, hex⟩ := Machine.executes_of_ran hstep
      rw [Machine.next_of_ran hstep]
      exact ⟨s, hs, hex.frame⟩
  · obtain ⟨es, hrun, hlines⟩ := hb.run_eq hk
    rw [hrun]
    exact ⟨rfl, hlines, Machine.vars_next_of_breakdown hb.breaks⟩

/-- A label that marks the last statement from behind: the jump to it succeeds,
    and the assignment there fails. -/
theorem step_frame_from_behind :
    ∃ m : Machine, m.program.labels = [("last", -1)] ∧
      m.BreaksAfter 2 (.failed (.unknownOperator "?")) ∧
      (m.run 3).lines = ["x"] ∧ (m.run 3).machine.vars = [] ∧
      ¬ ∃ k < 3, (m.after k).Assigns (.text "y") := by
  let p : Program := ⟨#[.print (.literal (.text "x")), .goto (.text "last"),
    .assign (.text "y") (.binary (.var (.text "y")) (.text "?") (.var (.text "y")))],
    [("last", -1)]⟩
  have hb : (Machine.start p).BreaksAfter 2 (.failed (.unknownOperator "?")) := by
    refine ⟨fun j hj => ?_, by decide +kernel⟩
    obtain rfl | rfl : j = 0 ∨ j = 1 := by omega
    · exact ⟨_, _, rfl⟩
    · exact ⟨_, _, rfl⟩
  obtain ⟨-, hlines, hvars⟩ := (step_frame.2.2 (.start p) 3).2 2 _ hb (by omega)
  have hprinted : (Machine.start p).printed 2 = ["x"] := by decide +kernel
  have hempty : ((Machine.start p).after 2).vars = [] := by decide +kernel
  have hnone : (((Machine.start p).after 3).vars.get? (.text "y")).isSome = false := by
    decide +kernel
  refine ⟨.start p, rfl, hb, hlines.trans hprinted, hvars.trans hempty, fun hk => ?_⟩
  have hbinds := (step_frame.2.1 p 3 (.text "y")).2 hk
  rw [Variables.Binds, hnone] at hbinds
  cases hbinds

end GotoBasic
