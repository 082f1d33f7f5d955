/-
  Executing statement after statement, and the loops that do it.

  * `Machine.Steps`: statements are executed one after the other, and none of
    them fails;
  * `Machine.Ends`: how a machine ends that may execute so many statements, and
    that a client stops after some number of them, which may be infinite;
  * `Machine.Sound.exists_ends`: a sound machine ends in one of these ways;
  * `Machine.run_of_ends`, `Machine.runBounded_of_ends`: the loops `run` and
    `runBounded` find how a machine ends.
-/
import Mathlib.Data.ENat.Basic
import GotoBasic.Machine.Run
import GotoBasic.Proofs.Machine.Safety

namespace GotoBasic

/-- A statement was executed, or failed. -/
def Outcome.Attempted : Outcome → Prop
  | ran .. | failed .. => True
  | halted | astray => False

theorem Outcome.Attempted.ne_halted {o : Outcome} (h : o.Attempted) : o ≠ .halted := by
  rintro rfl
  exact h

theorem Outcome.Attempted.ne_astray {o : Outcome} (h : o.Attempted) : o ≠ .astray := by
  rintro rfl
  exact h

namespace Machine

/-- The machine `m'` is reached from `m` by executing statements that do
    `es`. -/
inductive Steps : Machine → List Effect → Machine → Prop where
  | refl (m : Machine) : Steps m [] m
  | next {m m' m'' : Machine} {e : Effect} {es : List Effect} :
      m.step = .ran e m' → Steps m' es m'' → Steps m (e :: es) m''

/-- How a machine `m₀` ends that executes up to `limit` statements and is
    stopped after `stop` of them: what the statements did, the machine then,
    whether it was stopped, and the ending.  A stop comes before all other
    endings, and the end of the program before the limit. -/
inductive Ends (limit : Int) (stop : ℕ∞) (m₀ : Machine) :
    List Effect → Machine → Bool → Ending → Prop where
  | stopped {es : List Effect} {m : Machine} :
      Steps m₀ es m → es.length = stop → es.length ≤ limit.toNat →
      Ends limit stop m₀ es m true .finished
  | finished {es : List Effect} {m : Machine} :
      Steps m₀ es m → m.running = false → es.length < stop → es.length ≤ limit.toNat →
      Ends limit stop m₀ es m false .finished
  | failed {es : List Effect} {m next : Machine} {error : RunError} :
      Steps m₀ es m → m.step = .failed error next → es.length < stop → es.length < limit →
      Ends limit stop m₀ es next false (.failed error)
  | unfinished {es : List Effect} {m : Machine} :
      Steps m₀ es m → m.running = true → es.length < stop → es.length = limit.toNat →
      Ends limit stop m₀ es m false .unfinished

variable {p : Program} {m m' m'' m₀ next : Machine} {e : Effect} {es : List Effect}
  {error : RunError} {limit : Int} {stop : ℕ∞} {stopped : Bool} {ending : Ending}

theorem withValue_attempted {expr : Expr} {next : Value → Outcome}
    (hn : ∀ v, (next v).Attempted) : (m.withValue expr next).Attempted := by
  unfold withValue
  split
  · exact hn _
  · trivial

theorem execute_attempted (m : Machine) (s : Statement) : (m.execute s).Attempted := by
  cases s with
  | assign => exact withValue_attempted fun v => trivial
  | print =>
    refine withValue_attempted fun v => ?_
    split <;> trivial
  | goto =>
    simp only [execute]
    split <;> trivial
  | ifThen =>
    simp only [execute]
    split
    · trivial
    · refine withValue_attempted fun v => ?_
      split
      · trivial
      · split <;> trivial
  | stray => trivial

/-- A machine halts if and only if it does not run. -/
theorem step_eq_halted_iff : m.step = .halted ↔ m.running = false := by
  unfold step
  split
  · rename_i hr
    split
    · rename_i s _
      simp [hr, (execute_attempted _ s).ne_halted]
    · simp [hr]
  · rename_i hr
    simp [hr]

/-- A machine that runs goes astray if and only if there is no statement at its
    counter. -/
theorem step_eq_astray_iff_of_running (hr : m.running = true) :
    m.step = .astray ↔ m.statement? = none := by
  rw [step, if_pos hr]
  cases m.statement? with
  | none => simp
  | some s => simp [(execute_attempted _ s).ne_astray]

theorem running_of_ran (h : m.step = .ran e next) : m.running = true := by
  simpa [h] using @step_eq_halted_iff m

theorem running_of_failed (h : m.step = .failed error next) : m.running = true := by
  simpa [h] using @step_eq_halted_iff m

theorem Steps.snoc (h : m.Steps es m') (hs : m'.step = .ran e m'') : m.Steps (es ++ [e]) m'' := by
  induction h with
  | refl => exact .next hs (.refl _)
  | next hran _ ih => exact .next hran (ih hs)

theorem Steps.sound (hp : p.Proper) (h : m.Steps es m') (hm : m.Sound p) : m'.Sound p := by
  induction h with
  | refl => exact hm
  | next hran _ ih =>
    have hs := hm.step hp
    rw [hran] at hs
    exact ih hs

/-! ## Every run ends in one of the ways -/

theorem Steps.exists_ends (hp : p.Proper) (hm₀ : m₀.Sound p) (h : m₀.Steps es m)
    (hl : es.length ≤ limit.toNat) (hs : es.length ≤ stop) :
    ∃ es m stopped ending, m₀.Ends limit stop es m stopped ending := by
  -- by induction on the number of statements that are still allowed
  obtain ⟨left, hleft⟩ := Nat.exists_eq_add_of_le hl
  induction left generalizing es m with
  | zero =>
    rcases hs.eq_or_lt with heq | hlt
    · exact ⟨es, m, true, _, .stopped h heq hl⟩
    · cases hr : m.running with
      | false => exact ⟨es, m, false, _, .finished h hr hlt hl⟩
      | true => exact ⟨es, m, false, _, .unfinished h hr hlt hleft.symm⟩
  | succ left ih =>
    rcases hs.eq_or_lt with heq | hlt
    · exact ⟨es, m, true, _, .stopped h heq hl⟩
    · have hsound := (h.sound hp hm₀).step hp
      cases hstep : m.step with
      | halted => exact ⟨es, m, false, _, .finished h (step_eq_halted_iff.1 hstep) hlt hl⟩
      | ran e next =>
        refine ih (h.snoc hstep) ?_ ?_ ?_
        · simp only [List.length_append, List.length_cons, List.length_nil]
          omega
        · simpa using Order.add_one_le_of_lt hlt
        · simp only [List.length_append, List.length_cons, List.length_nil]
          omega
      | failed error next => exact ⟨es, next, false, _, .failed h hstep hlt (by omega)⟩
      | astray =>
        rw [hstep] at hsound
        exact hsound.elim

/-- **A sound machine ends in one of the ways.** -/
theorem Sound.exists_ends (hp : p.Proper) (hm : m.Sound p) (limit : Int) (stop : ℕ∞) :
    ∃ es m' stopped ending, m.Ends limit stop es m' stopped ending :=
  (Steps.refl m).exists_ends hp hm (by simp) (by simp)

/-- A sound machine that fails uses a text that is no numeral as a number. -/
theorem Ends.numeric (hp : p.Proper) (hm₀ : m₀.Sound p)
    (h : m₀.Ends limit stop es m stopped (.failed error)) : error.Numeric := by
  cases h with
  | failed hes hstep _ _ =>
    have hs := (hes.sound hp hm₀).step hp
    rw [hstep] at hs
    exact hs.1

/-! ## The loops -/

theorem runFrom_of_steps (h : m.Steps es m') (past : List Effect) (fuel : Nat) :
    runFrom past (es.length + fuel) m = runFrom (es.reverse ++ past) fuel m' := by
  induction h generalizing past with
  | refl => simp
  | @next m m' m'' e es hran _ ih =>
    rw [List.length_cons, Nat.add_right_comm, runFrom, hran]
    simp only
    rw [ih (e :: past)]
    simp

/-- **The plain loop finds how a machine ends that is not stopped.** -/
theorem run_of_ends (h : m.Ends limit ⊤ es m' stopped ending) (hf : ending ≠ .unfinished)
    {fuel : Nat} (hfuel : es.length < fuel) : m.run fuel = ⟨m', es, ending⟩ := by
  obtain ⟨left, rfl⟩ := Nat.exists_eq_add_of_lt hfuel
  rw [run, Nat.add_assoc]
  cases h with
  | stopped _ htop _ => simp at htop
  | finished hes hr _ _ =>
    rw [runFrom_of_steps hes, runFrom, step_eq_halted_iff.2 hr]
    simp
  | failed hes hstep _ _ =>
    rw [runFrom_of_steps hes, runFrom, hstep]
    simp
  | unfinished => exact absurd rfl hf

theorem runBoundedFrom_of_steps (h : m.Steps es m') {steps : Nat} (printed : List String)
    (hl : steps + es.length ≤ limit.toNat) :
    runBoundedFrom limit steps printed m =
      runBoundedFrom limit (steps + es.length) ((es.filterMap Effect.line?).reverse ++ printed)
        m' := by
  induction h generalizing steps printed with
  | refl => simp
  | @next m m' m'' e es hran _ ih =>
    rw [List.length_cons] at hl
    have hlt : ¬ limit ≤ steps := by omega
    rw [runBoundedFrom, if_pos (running_of_ran hran), if_neg hlt, hran]
    simp only
    rw [ih _ (by omega), List.length_cons]
    cases hline : e.line? <;> simp [hline, Nat.add_assoc, Nat.add_comm 1]

/-- **The bounded loop finds how a machine ends that is not stopped.** -/
theorem runBounded_of_ends (h : m.Ends limit ⊤ es m' stopped ending) :
    m.runBounded limit = (es.filterMap Effect.line?, m', ending) := by
  rw [runBounded]
  cases h with
  | stopped _ htop _ => simp at htop
  | finished hes hr _ hl =>
    rw [runBoundedFrom_of_steps hes [] (by omega), runBoundedFrom]
    simp [hr]
  | failed hes hstep _ hl =>
    have hlt : ¬ limit ≤ ((0 + es.length : Nat) : Int) := by omega
    rw [runBoundedFrom_of_steps hes [] (by omega), runBoundedFrom,
      if_pos (running_of_failed hstep), if_neg hlt, hstep]
    simp
  | unfinished hes hr _ hl =>
    have hle : limit ≤ ((0 + es.length : Nat) : Int) := by omega
    rw [runBoundedFrom_of_steps hes [] (by omega), runBoundedFrom, if_pos hr, if_pos hle]
    simp

end Machine

end GotoBasic
