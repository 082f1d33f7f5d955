/-
  Programs that only jump forward.

  * `Program.Forward`: wherever a statement may jump to lies behind it;
  * `Machine.Sound.lt_of_ran`: executing a statement of such a program takes
    the counter forward, so `Machine.Sound.le_of_steps`: a run passes at least
    one statement for each that it executes;
  * `Machine.trail fuel m`: the indices of the statements that a run attempts;
    `Machine.Sound.trail_increases`: they increase;
  * `forward_ends`: so such a program ends or fails, after no more statements
    than it has.
-/
import GotoBasic.Service
import GotoBasic.Proofs.Machine.Frame

namespace GotoBasic

/-- Every label of the program that a statement may jump to marks a place
    behind the statement. -/
def Program.Forward (p : Program) : Prop :=
  ∀ i, ∀ h : i < p.statements.size, ∀ label ∈ p.statements[i].label?,
    ∀ target ∈ p.target? label, (i : Int) < target

instance (p : Program) : Decidable p.Forward :=
  inferInstanceAs (Decidable (∀ i, ∀ h : i < p.statements.size, ∀ label ∈ p.statements[i].label?,
    ∀ target ∈ p.target? label, (i : Int) < target))

namespace Machine

variable {p : Program} {m m' next : Machine} {s : Statement} {e : Effect} {es : List Effect}
  {limit : Int} {stopped : Bool} {ending : Ending}

/-- The indices of the statements that a run attempts to execute. -/
def trail : Nat → Machine → List Int
  | 0, _ => []
  | fuel + 1, m =>
    match m.step with
    | .halted | .astray => []
    | .ran _ next => m.counter :: trail fuel next
    | .failed .. => [m.counter]

/-! ## The counter goes forward -/

theorem Sound.lt_size (hm : m.Sound p) (hr : m.running = true) :
    m.counter < p.statements.size := by
  simpa [running, hm.program] using hr

/-- The counter of a sound machine that runs is the index of its next
    statement. -/
theorem Sound.exists_index (hm : m.Sound p) (hr : m.running = true)
    (hs : m.statement? = some s) :
    ∃ i, ∃ h : i < p.statements.size, m.counter = i ∧ p.statements[i] = s := by
  obtain ⟨i, hi⟩ := Int.eq_ofNat_of_zero_le hm.nonneg
  have hlt : i < p.statements.size := by
    have := hm.lt_size hr
    omega
  have hst : m.statement? = some p.statements[i] := by
    simp [statement?, hm.program, hi, Index.position?_natCast hlt, hlt]
  exact ⟨i, hlt, hi, Option.some.inj (hst.symm.trans hs)⟩

section
variable (hp : p.Proper) (hf : p.Forward)
include hf

/-- **A statement takes the counter forward.** -/
theorem Sound.lt_of_ran (hm : m.Sound p) (h : m.step = .ran e next) :
    m.counter < next.counter := by
  obtain ⟨s, hs, hex⟩ := executes_of_ran h
  rcases hex.frame.counter with hnext | ⟨label, hlabel, htarget⟩
  · omega
  · obtain ⟨i, hi, hcounter, rfl⟩ := hm.exists_index (running_of_ran h) hs
    rw [hm.program] at htarget
    rw [hcounter]
    exact hf i hi label hlabel _ htarget

include hp

/-- A run passes at least as many statements as it executes. -/
theorem Sound.le_of_steps (hm : m.Sound p) (h : m.Steps es m') :
    m.counter + es.length ≤ m'.counter := by
  induction h with
  | refl => simp
  | @next m m' m'' e es hran _ ih =>
    have hlt := hm.lt_of_ran hf hran
    have hm' : m'.Sound p := by
      have hs := hm.step hp
      rwa [hran] at hs
    have hle := ih hm'
    rw [List.length_cons]
    omega

/-- A run that may execute as many statements as the program has ends or
    fails. -/
theorem Sound.ends_forward (hm : m.Sound p) (hl : p.statements.size ≤ limit)
    (h : m.Ends limit ⊤ es m' stopped ending) :
    ending ≠ .unfinished ∧ es.length ≤ p.statements.size := by
  have hbound : ∀ {m'}, m.Steps es m' → es.length ≤ m'.counter := by
    intro m' hes
    have := hm.le_of_steps hp hf hes
    have := hm.nonneg
    omega
  cases h with
  | stopped _ htop _ => simp at htop
  | finished hes _ _ _ =>
    have hle := hbound hes
    have := (hes.sound hp hm).le_size
    exact ⟨by simp, by omega⟩
  | failed hes hstep _ _ =>
    have hle := hbound hes
    have := (hes.sound hp hm).lt_size (running_of_failed hstep)
    exact ⟨by simp, by omega⟩
  | unfinished hes hr _ hlength =>
    -- all statements would have been executed, and one would still be ahead
    have hle := hbound hes
    have := (hes.sound hp hm).lt_size hr
    omega

/-- **The statements of a run come in the order of the program**, and none
    comes twice. -/
theorem Sound.trail_increases (hm : m.Sound p) (fuel : Nat) :
    m.counter + (m.trail fuel).length ≤ p.statements.size ∧
      (m.trail fuel).Pairwise (· < ·) ∧
      ∀ i ∈ m.trail fuel, m.counter ≤ i ∧ i < p.statements.size := by
  induction fuel generalizing m with
  | zero => simpa [trail] using hm.le_size
  | succ fuel ih =>
    have hs := hm.step hp
    rw [trail]
    cases hstep : m.step with
    | halted | astray => simpa using hm.le_size
    | failed error next =>
      have hlt := hm.lt_size (running_of_failed hstep)
      simp only [List.length_singleton, List.pairwise_singleton, List.mem_singleton, true_and,
        forall_eq]
      omega
    | ran e next =>
      rw [hstep] at hs
      have hnext := hm.lt_of_ran hf hstep
      have hlt := hm.lt_size (running_of_ran hstep)
      obtain ⟨hlength, hchain, hrange⟩ := ih hs
      refine ⟨?_, List.pairwise_cons.2 ⟨fun i hi => ?_, hchain⟩, fun i hi => ?_⟩
      · rw [List.length_cons]
        omega
      · have := hrange i hi
        omega
      · rcases List.mem_cons.1 hi with rfl | hi
        · exact ⟨Int.le_refl _, hlt⟩
        · have := hrange i hi
          omega

end

/-! ## The trail of a run -/

theorem length_trail_of_steps (h : m.Steps es m') (fuel : Nat) :
    (m.trail (es.length + fuel)).length = es.length + (m'.trail fuel).length := by
  induction h with
  | refl => simp
  | @next m m' m'' e es hran _ ih =>
    rw [List.length_cons, Nat.add_right_comm, trail, hran]
    simp only [List.length_cons, ih]
    omega

/-- A run that ends attempts the statements that it executes, and a run that
    fails attempts one more. -/
theorem Sound.length_trail (hp : p.Proper) (hm : m.Sound p)
    (h : m.Ends limit ⊤ es m' stopped ending) (hne : ending ≠ .unfinished) {fuel : Nat}
    (hfuel : es.length < fuel) :
    ending = .finished ∧ (m.trail fuel).length = es.length ∨
      ∃ error, ending = .failed error ∧ error.name = "EvalError" ∧
        (m.trail fuel).length = es.length + 1 := by
  obtain ⟨left, rfl⟩ := Nat.exists_eq_add_of_lt hfuel
  rw [Nat.add_assoc]
  cases h with
  | stopped _ htop _ => simp at htop
  | finished hes hr _ _ =>
    refine .inl ⟨rfl, ?_⟩
    rw [length_trail_of_steps hes, trail, step_eq_halted_iff.2 hr]
    rfl
  | failed hes hstep hstop hl =>
    have hnumeric := Ends.numeric hp hm (.failed hes hstep hstop hl)
    refine .inr ⟨_, rfl, hnumeric.report.1, ?_⟩
    rw [length_trail_of_steps hes, trail, hstep]
    rfl
  | unfinished => exact absurd rfl hne

end Machine

/-- **Only jumps backward can loop.**  A program that is parsed from a text and
    only jumps forward ends, or fails at a text that is no numeral.  The
    statements that it attempts are no more than it has; they come in the order
    of the program, and none comes twice.  So a run that may execute as many
    statements as the program has never reaches its limit. -/
theorem forward_ends {source : String} {p : Program} (h : Program.parse source = .ok p)
    (hf : p.Forward) :
    (∃ r : Run, (∀ fuel, p.statements.size < fuel → (Machine.start p).run fuel = r) ∧
      ∀ fuel, p.statements.size < fuel →
        ((Machine.start p).trail fuel).length ≤ p.statements.size ∧
        ((Machine.start p).trail fuel).Pairwise (· < ·) ∧
        (∀ i ∈ (Machine.start p).trail fuel, 0 ≤ i ∧ i < p.statements.size) ∧
        (r.ending = .finished ∧ ((Machine.start p).trail fuel).length = r.effects.length ∨
          ∃ error, r.ending = .failed error ∧ error.name = "EvalError" ∧
            ((Machine.start p).trail fuel).length = r.effects.length + 1)) ∧
    ∀ limit : Int, p.statements.size ≤ limit →
      ∀ n, (Service.runSource limit source).2 ≠ some (.limit n) := by
  have hp := proper_of_parse h
  have hm := Machine.sound_start p
  constructor
  · obtain ⟨es, m, stopped, ending, hends⟩ := hm.exists_ends hp p.statements.size ⊤
    obtain ⟨hne, hlength⟩ := hm.ends_forward hp hf (Int.le_refl _) hends
    refine ⟨⟨m, es, ending⟩, fun fuel hfuel => Machine.run_of_ends hends hne (by omega),
      fun fuel hfuel => ?_⟩
    obtain ⟨hcount, hincreasing, hrange⟩ := hm.trail_increases hp hf fuel
    exact ⟨by simpa [Machine.start] using hcount, hincreasing, hrange,
      hm.length_trail hp hends hne (by omega)⟩
  · intro limit hl n
    obtain ⟨es, m, stopped, ending, hends⟩ := hm.exists_ends hp limit ⊤
    obtain ⟨hne, -⟩ := hm.ends_forward hp hf hl hends
    simp only [Service.runSource, h, Machine.runBounded_of_ends hends]
    cases ending with
    | unfinished => exact absurd rfl hne
    | finished | failed | astray => simp [Ending.failure?]

/-- A program that jumps forward, or to a label that it lacks, and fails at its
    last statement. -/
theorem forward_ends_failing :
    ∃ p, Program.parse "if a = a then b goto c print a :b print a - \"y\"" = .ok p ∧ p.Forward ∧
      (∃ error, ((Machine.start p).run 5).ending = .failed error ∧ error.name = "EvalError") ∧
      (Machine.start p).trail 5 = [0, 3] ∧
      ∀ n, (Service.runSource 4 "if a = a then b goto c print a :b print a - \"y\"").2 ≠
        some (.limit n) := by
  let a : Expr := .var (.text "a")
  let p : Program := ⟨#[.ifThen (.binary a (.text "=") a) (.text "b"), .goto (.text "c"),
    .print a, .print (.binary a (.text "-") (.literal (.text "y")))], [("b", 3)]⟩
  have hparse : Program.parse "if a = a then b goto c print a :b print a - \"y\"" = .ok p := by
    with_unfolding_all rfl
  have hforward : p.Forward := by decide +kernel
  have htrail : (Machine.start p).trail 5 = [0, 3] := by decide +kernel
  have heffects : ((Machine.start p).run 5).effects.length = 1 := by decide +kernel
  obtain ⟨⟨r, hrun, hends⟩, hlimit⟩ := forward_ends hparse hforward
  rw [hrun 5 (by decide)] at heffects
  refine ⟨p, hparse, hforward, ?_, htrail, hlimit 4 (by decide)⟩
  rw [hrun 5 (by decide)]
  obtain ⟨-, -, -, ⟨-, hlength⟩ | ⟨error, hfailed, hname, -⟩⟩ := hends 5 (by decide)
  · simp [htrail, heffects] at hlength
  · exact ⟨error, hfailed, hname⟩

end GotoBasic
