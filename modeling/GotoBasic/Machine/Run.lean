/-
  Running a machine.

  * `Machine.run fuel m`: executes statements until the program ends or fails;
    `fuel` bounds their number, and a run that uses it up ends `unfinished`;
  * `Machine.runBounded limit m`: executes at most `limit` statements and
    reports a program that still runs after them.
-/
import GotoBasic.Machine.Step

namespace GotoBasic

/-- How a run ends. -/
inductive Ending where
  | finished
  | failed (error : RunError)
  /-- the counter lies before the first statement -/
  | astray (counter : Int)
  /-- the program still runs -/
  | unfinished

/-- A run: where it got, what its statements did, and how it ended. -/
structure Run where
  machine : Machine
  effects : List Effect
  ending : Ending

/-- The line that a statement printed. -/
def Effect.line? : Effect → Option String
  | printed line => some line
  | _ => none

/-- The line that a step printed. -/
def Outcome.line? : Outcome → Option String
  | ran effect _ => effect.line?
  | halted | failed .. | astray => none

/-- The lines that a run printed. -/
def Run.lines (r : Run) : List String := r.effects.filterMap Effect.line?

/-- The wording of the complaint about a program that does not end. -/
def stepLimitMessage (limit : Int) : String :=
  "Program still running after " ++ toString limit ++ " statements"

namespace Machine

/-- Runs a machine whose statements so far had the reversed effects
    `past`. -/
def runFrom (past : List Effect) : Nat → Machine → Run
  | 0, m => ⟨m, past.reverse, .unfinished⟩
  | fuel + 1, m =>
    match m.step with
    | .halted => ⟨m, past.reverse, .finished⟩
    | .ran effect next => runFrom (effect :: past) fuel next
    | .failed error next => ⟨next, past.reverse, .failed error⟩
    | .astray => ⟨m, past.reverse, .astray m.counter⟩

/-- Runs a machine. -/
def run (fuel : Nat) (m : Machine) : Run := runFrom [] fuel m

/-- Runs a machine that has executed `steps` statements, with the reversed
    lines `printed`, up to `limit` statements. -/
def runBoundedFrom (limit : Int) (steps : Nat) (printed : List String) (m : Machine) :
    List String × Machine × Ending :=
  if m.running then
    if limit ≤ steps then (printed.reverse, m, .unfinished)
    else
      match m.step with
      | .halted => (printed.reverse, m, .finished)
      | .ran effect next =>
        runBoundedFrom limit (steps + 1) (effect.line?.toList ++ printed) next
      | .failed error next => (printed.reverse, next, .failed error)
      | .astray => (printed.reverse, m, .astray m.counter)
  else (printed.reverse, m, .finished)
termination_by (limit - steps).toNat

/-- Executes at most `limit` statements: the lines printed, the machine then,
    and how it ended. -/
def runBounded (limit : Int) (m : Machine) : List String × Machine × Ending :=
  runBoundedFrom limit 0 [] m

end Machine

end GotoBasic
