/-
  Running a parsed program is safe.

  * `RunError.Numeric`: the failure of a text that is no numeral;
  * `Expr.safe_evaluate`: a proper expression has a proper value or fails in
    this way;
  * `Machine.Sound`: an invariant of machines; the counter is the index of a
    statement or the end, and all variables have proper values;
  * `Machine.Sound.step`: executing a statement keeps the invariant, also if
    it fails, and fails only at a text that is no numeral;
  * `parse_step_safe`: so does a program that was parsed from any text, however
    often it is stepped.
-/
import GotoBasic.Machine.Step
import GotoBasic.Proofs.Parse.Proper

namespace GotoBasic

/-- A text that is no numeral was used as a number. -/
def RunError.Numeric (e : RunError) : Prop :=
  ∃ text, e = .notNumeric text ∧ (Value.text text).toNumber = .error e

/-- A result with the property `good`, or the failure of a text that is no
    numeral. -/
def Safe {α : Type} (good : α → Prop) : Except RunError α → Prop
  | .ok a => good a
  | .error e => e.Numeric

theorem Safe.bind {α β : Type} {good : α → Prop} {better : β → Prop} {r : Except RunError α}
    {next : α → Except RunError β} (h : Safe good r)
    (hn : ∀ a, good a → Safe better (next a)) : Safe better (r >>= next) := by
  cases r with
  | ok a => exact hn a h
  | error e => exact h

/-! ## Values and expressions -/

namespace Value

theorem safe_toText {v : Value} (h : v.Proper) : Safe (fun _ => True) v.toText := by
  cases v with
  | number | text => trivial
  | stray => exact absurd h id

theorem safe_toNumber {v : Value} (h : v.Proper) : Safe (fun _ => True) v.toNumber := by
  cases v with
  | number => trivial
  | text s =>
    cases hs : numberOfText? s with
    | some x => simp [toNumber, hs, Safe]
    | none =>
      have he : (text s).toNumber = .error (.notNumeric s) := by simp [toNumber, hs]
      rw [he]
      exact ⟨s, rfl, he⟩
  | stray => exact absurd h id

end Value

namespace Operator

section
variable {left right : Value} (hl : left.Proper) (hr : right.Proper)
include hl hr

theorem safe_arithmetic (f : Number → Number → Number) :
    Safe Value.Proper (arithmetic f left right) :=
  (Value.safe_toNumber hl).bind fun _ _ => (Value.safe_toNumber hr).bind fun _ _ => trivial

theorem safe_comparison (texts : String → String → Bool) (numbers : Number → Number → Bool) :
    Safe Value.Proper (comparison texts numbers left right) := by
  unfold comparison
  split
  · exact (Value.safe_toText hr).bind fun _ _ => trivial
  · exact (Value.safe_toNumber hl).bind fun _ _ => (Value.safe_toNumber hr).bind fun _ _ => trivial

theorem safe_sum : Safe Value.Proper (sum left right) := by
  unfold sum
  split
  · exact (Value.safe_toText hr).bind fun _ _ => trivial
  · exact safe_arithmetic hl hr Number.add

theorem safe_apply (op : Operator) : Safe Value.Proper (op.apply left right) := by
  cases op with
  | equal | less | greater => exact safe_comparison hl hr _ _
  | plus => exact safe_sum hl hr
  | minus | times | divided => exact safe_arithmetic hl hr _

end

end Operator

theorem Value.safe_apply {sign : String} {left right : Value}
    (hs : (Operator.ofSign? sign).isSome = true) (hl : left.Proper) (hr : right.Proper) :
    Safe Value.Proper (Value.apply sign left right) := by
  obtain ⟨op, hop⟩ := Option.isSome_iff_exists.1 hs
  simp only [Value.apply, hop]
  exact Operator.safe_apply hl hr op

/-- The operator of a pending operation is known, and its operand safe. -/
def Pending.Proper (p : Pending) : Prop :=
  (Operator.ofSign? p.sign).isSome = true ∧ Safe Value.Proper (p.right ())

theorem Pending.safe_applyAll {later : List Pending} {left : Value} (hl : left.Proper)
    (h : ∀ p ∈ later, p.Proper) : Safe Value.Proper (applyAll left later) := by
  induction later generalizing left with
  | nil => exact hl
  | cons p later ih =>
    obtain ⟨hs, hr⟩ := h p (by simp)
    rw [applyAll]
    split
    · rename_i hp
      rwa [hp] at hr
    · rename_i right hp
      rw [hp] at hr
      have ha := Value.safe_apply hs hl hr
      split
      · rename_i he
        rwa [he] at ha
      · rename_i v hv
        rw [hv] at ha
        exact ih ha fun q hq => h q (by simp [hq])

theorem Bindings.mem_of_get? {ν α : Type} [BEq ν] {bs : Bindings ν α} {name : ν} {a : α}
    (h : bs.get? name = some a) : ∃ b ∈ bs, b.2 = a := by
  induction bs with
  | nil => simp [get?] at h
  | cons b bs ih =>
    rw [get?_cons] at h
    split at h
    · cases h
      exact ⟨b, by simp, rfl⟩
    · obtain ⟨c, hc, ha⟩ := ih h
      exact ⟨c, by simp [hc], ha⟩

/-- All variables have proper values. -/
def Variables.Proper (vars : Variables) : Prop := ∀ b ∈ vars, b.2.Proper

theorem Variables.Proper.value {vars : Variables} (h : vars.Proper) (name : Atom) :
    (vars.value name).Proper := by
  rw [Variables.value]
  cases hg : vars.get? name with
  | none => trivial
  | some v =>
    obtain ⟨b, hb, rfl⟩ := Bindings.mem_of_get? hg
    exact h b hb

theorem Variables.Proper.put {vars : Variables} (h : vars.Proper) {name : Atom} {v : Value}
    (hv : v.Proper) : Variables.Proper (vars.put name v) := by
  intro b hb
  rcases Bindings.mem_put hb with hb | rfl
  · exact h b hb
  · exact hv

namespace Expr

theorem safe_evaluateChain {vars : Variables} (hv : vars.Proper) {e : Expr} (he : e.Proper)
    {later : List Pending} (hl : ∀ p ∈ later, p.Proper) :
    Safe Value.Proper (e.evaluateChain vars later) := by
  induction e generalizing later with
  | literal v => exact Pending.safe_applyAll he hl
  | var name => exact Pending.safe_applyAll (hv.value name) hl
  | binary left sign right ih₁ ih₂ =>
    obtain ⟨h₁, hs, h₂⟩ := he
    refine ih₁ h₁ fun p hp => ?_
    rcases List.mem_cons.1 hp with rfl | hp
    · exact ⟨hs, ih₂ h₂ (by simp)⟩
    · exact hl p hp
  | stray => exact absurd he id

/-- **A proper expression is evaluated safely.** -/
theorem safe_evaluate {vars : Variables} (hv : vars.Proper) {e : Expr} (he : e.Proper) :
    Safe Value.Proper (e.evaluate vars) :=
  safe_evaluateChain hv he (by simp)

end Expr

/-! ## Machines -/

/-- A machine that runs `p`: its counter is the index of a statement or the
    end, and its variables have proper values. -/
structure Machine.Sound (p : Program) (m : Machine) : Prop where
  program : m.program = p
  vars : m.vars.Proper
  nonneg : 0 ≤ m.counter
  le_size : m.counter ≤ p.statements.size

/-- The statement was executed in a sound machine, or failed at a text that is
    no numeral, and the machine is sound then. -/
def Outcome.Sound (p : Program) : Outcome → Prop
  | halted => True
  | ran _ next => next.Sound p
  | failed error next => error.Numeric ∧ next.Sound p
  | astray => False

namespace Machine

variable {p : Program} {m : Machine}

theorem sound_start (p : Program) : (start p).Sound p :=
  ⟨rfl, by simp [Variables.Proper, start], Int.le_refl _, by simp [start]⟩

theorem Sound.jumpTo (hp : p.Proper) (h : m.Sound p) {label : Atom} {target : Int}
    (ht : m.program.target? label = some target) : (m.jumpTo label target).Sound p := by
  have hmem : ∃ l ∈ p.labels, l.2 = target := by
    rw [h.program] at ht
    unfold Program.target? at ht
    split at ht
    · exact Bindings.mem_of_get? ht
    · cases ht
  obtain ⟨l, hl, rfl⟩ := hmem
  exact ⟨h.program, h.vars, (hp.labels l hl).1, (hp.labels l hl).2⟩

theorem Sound.withValue (h : m.Sound p) {e : Expr} (he : e.Proper) {next : Value → Outcome}
    (hn : ∀ v, v.Proper → (next v).Sound p) : (m.withValue e next).Sound p := by
  have hs := Expr.safe_evaluate h.vars he
  rw [Machine.withValue]
  split
  · rename_i v hv
    rw [hv] at hs
    exact hn v hs
  · rename_i error hv
    rw [hv] at hs
    exact ⟨hs, h⟩

/-- Executing a proper statement keeps a machine sound. -/
theorem Sound.execute (hp : p.Proper) (h : m.Sound p) {s : Statement} (hs : s.Proper) :
    (m.execute s).Sound p := by
  cases s with
  | assign name e =>
    exact h.withValue hs fun v hv => ⟨h.program, h.vars.put hv, h.nonneg, h.le_size⟩
  | print e =>
    refine h.withValue hs fun v hv => ?_
    have ht := Value.safe_toText hv
    split
    · rename_i hv
      rw [hv] at ht
      exact ⟨ht, h⟩
    · exact h
  | goto label =>
    simp only [Machine.execute]
    split
    · rename_i ht
      exact h.jumpTo hp ht
    · exact h
  | ifThen condition label =>
    simp only [Machine.execute]
    split
    · exact h
    · rename_i ht
      refine h.withValue hs fun v hv => ?_
      have hx := Value.safe_toNumber hv
      split
      · rename_i hv
        rw [hv] at hx
        exact ⟨hx, h⟩
      · split
        · exact h
        · exact h.jumpTo hp ht
  | stray => exact absurd hs id

/-- **Executing the statement at the counter keeps a machine sound.** -/
theorem Sound.step (hp : p.Proper) (h : m.Sound p) : m.step.Sound p := by
  unfold Machine.step
  split
  · rename_i hr
    obtain ⟨n, hn⟩ := Int.eq_ofNat_of_zero_le h.nonneg
    have hlt : n < p.statements.size := by
      simpa [Machine.running, hn, h.program] using hr
    have hs : m.statement? = some p.statements[n] := by
      simp [Machine.statement?, h.program, hn, Index.position?_natCast hlt, hlt]
    have hm : Sound p { m with counter := m.counter + 1 } :=
      ⟨h.program, h.vars, Int.add_nonneg h.nonneg (by decide), by simp only [hn]; omega⟩
    rw [hs]
    exact hm.execute hp (hp.statements _ (Array.getElem_mem hlt))
  · trivial

/-! ## Step after step -/

/-- The machine after executing the statement at the counter, also if that
    failed. -/
def next (m : Machine) : Machine :=
  match m.step with
  | .ran _ next | .failed _ next => next
  | .halted | .astray => m

/-- The machine after so many attempts to execute a statement. -/
def after (m : Machine) : Nat → Machine
  | 0 => m
  | n + 1 => (m.after n).next

theorem Sound.next (hp : p.Proper) (h : m.Sound p) : m.next.Sound p := by
  have hs := h.step hp
  unfold Machine.next
  cases hm : m.step with
  | halted | astray => exact h
  | ran effect next =>
    rw [hm] at hs
    exact hs
  | failed error next =>
    rw [hm] at hs
    exact hs.2

theorem Sound.after (hp : p.Proper) (h : m.Sound p) (n : Nat) : (m.after n).Sound p := by
  induction n with
  | zero => exact h
  | succ n ih => exact ih.next hp

end Machine

/-- The wording of the failure of a text that is no numeral. -/
theorem RunError.Numeric.report {e : RunError} (h : e.Numeric) :
    e.name = "EvalError" ∧
      ∃ text, e.message = "Cannot convert " ++ Text.quoted text ++ " to a number" := by
  obtain ⟨text, rfl, -⟩ := h
  exact ⟨rfl, text, rfl⟩

/-- **Parsing a text fails with a complaint about its grammar only.  A parsed
    program may be stepped as often as one likes, also after failures: the
    counter stays inside the program, and a step fails only where a text that
    is no numeral is used as a number.** -/
theorem parse_step_safe (source : String) :
    (∀ e, Program.parse source = .error e → (Failure.parse e).name = "ParseError") ∧
    ∀ p, Program.parse source = .ok p → ∀ steps,
      0 ≤ ((Machine.start p).after steps).counter ∧
      ((Machine.start p).after steps).counter ≤ p.statements.size ∧
      ((Machine.start p).after steps).step ≠ .astray ∧
      ∀ error next, ((Machine.start p).after steps).step = .failed error next →
        error.Numeric ∧ error.name = "EvalError" ∧
        ∃ text, error.message = "Cannot convert " ++ Text.quoted text ++ " to a number" := by
  refine ⟨fun e he => name_of_parse he, fun p hp steps => ?_⟩
  have hproper := proper_of_parse hp
  have hm := (Machine.sound_start p).after hproper steps
  have hs := hm.step hproper
  refine ⟨hm.nonneg, hm.le_size, ?_, ?_⟩
  · intro hstep
    rw [hstep] at hs
    exact hs
  · intro error next hstep
    rw [hstep] at hs
    exact ⟨hs.1, hs.1.report⟩

/-- A text that is not parsed, and one whose second statement fails after the
    first did. -/
theorem parse_step_safe_after_failure :
    (∃ e, Program.parse "print" = .error e ∧ (Failure.parse e).name = "ParseError") ∧
    ∃ p next, Program.parse "a = 1 - \"x\" print \"y\" * a" = .ok p ∧
      ((Machine.start p).after 1).step = .failed (.notNumeric "y") next ∧
      0 ≤ ((Machine.start p).after 1).counter ∧ (RunError.notNumeric "y").Numeric := by
  constructor
  · cases h : Program.parse "print" with
    | error e => exact ⟨e, rfl, (parse_step_safe "print").1 e h⟩
    | ok p =>
      have hf : (Program.parse "print").isOk = false := by decide +kernel
      simp [h, Except.isOk, Except.toBool] at hf
  · have hf : (match Program.parse "a = 1 - \"x\" print \"y\" * a" with
        | .ok p => match ((Machine.start p).after 1).step with
          | .failed error _ => some error
          | _ => none
        | .error _ => none) = some (.notNumeric "y") := by
      decide +kernel
    split at hf
    · rename_i p hp
      split at hf
      · rename_i error next hstep
        cases hf
        obtain ⟨hn, -, -, he⟩ := (parse_step_safe _).2 p hp 1
        exact ⟨p, next, hp, hstep, hn, (he _ next hstep).1⟩
      · cases hf
    · cases hf

end GotoBasic
