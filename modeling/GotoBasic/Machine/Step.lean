/-
  Machines: a program that is being run.

  A machine holds its program, its variables and a counter, the index of the
  next statement; a negative counter counts from the end.  The program runs
  while the counter is below the number of statements.

  * `Machine.step`: executes one statement.  The counter moves on first, so
    a statement that fails leaves it behind that statement and changes nothing
    else; a counter before the first statement changes nothing at all;
  * `Effect`: what a statement did, other than moving the counter on.
-/
import GotoBasic.Index
import GotoBasic.Machine.Evaluate

namespace GotoBasic

/-- A program with its variables and the index of the next statement. -/
structure Machine where
  program : Program
  vars : Variables
  counter : Int

/-- What a statement did. -/
inductive Effect where
  | nothing
  | assigned (name : Atom) (value : Value)
  | printed (line : String)
  /-- went on at a label: the index of the statement, the label and its
      index -/
  | jumped (origin : Int) (label : Atom) (target : Int)

/-- The outcome of executing one statement. -/
inductive Outcome where
  /-- the program does not run any more -/
  | halted
  | ran (effect : Effect) (next : Machine)
  /-- the statement failed -/
  | failed (error : RunError) (next : Machine)
  /-- the counter lies before the first statement -/
  | astray

namespace Machine

/-- The machine at the start of a program. -/
def start (p : Program) : Machine := ⟨p, [], 0⟩

/-- Whether there is a next statement. -/
def running (m : Machine) : Bool := m.counter < m.program.statements.size

/-- The statement at the counter. -/
def statement? (m : Machine) : Option Statement :=
  (Index.position? m.program.statements.size m.counter).bind (m.program.statements[·]?)

/-- Goes on at a label, if the program has it. -/
def jump (m : Machine) (label : Atom) : Machine :=
  match m.program.target? label with
  | some target => { m with counter := target }
  | none => m

/-- A jump of the statement in front of the counter. -/
def jumpTo (m : Machine) (label : Atom) (target : Int) : Outcome :=
  .ran (.jumped (m.counter - 1) label target) { m with counter := target }

/-- Goes on with the value of an expression. -/
def withValue (m : Machine) (e : Expr) (next : Value → Outcome) : Outcome :=
  match e.evaluate m.vars with
  | .ok v => next v
  | .error error => .failed error m

/-- Executes a statement; the counter has moved on already. -/
def execute (m : Machine) : Statement → Outcome
  | .assign name expr =>
    m.withValue expr fun v =>
      .ran (.assigned name v) { m with vars := m.vars.put name v }
  | .print expr =>
    m.withValue expr fun v =>
      match v.toText with
      | .error error => .failed error m
      | .ok line => .ran (.printed line) m
  | .goto label =>
    match m.program.target? label with
    | some target => m.jumpTo label target
    | none => .ran .nothing m
  | .ifThen condition label =>
    -- the condition of a jump that leads nowhere is not evaluated
    match m.program.target? label with
    | none => .ran .nothing m
    | some target =>
      m.withValue condition fun v =>
        match v.toNumber with
        | .error error => .failed error m
        | .ok x => if x.isZero then .ran .nothing m else m.jumpTo label target
  | .stray item => .failed (.notStatement (m.counter - 1) item.kind) m

/-- Executes the statement at the counter. -/
def step (m : Machine) : Outcome :=
  if m.running then
    match m.statement? with
    | some s => execute { m with counter := m.counter + 1 } s
    | none => .astray
  else .halted

end Machine

end GotoBasic
