/-
  Failures: everything that can keep a program text from running to its end.

  * `Failure`, with its name and its wording; `Failure.report` is both in one
    line.
-/
import GotoBasic.Machine.Run
import GotoBasic.Parse.Program

namespace GotoBasic

/-- Why a program was not loaded, parsed or run to its end. -/
inductive Failure where
  /-- the script could not be loaded, for the reason given -/
  | load (path reason : String)
  | parse (error : ParseError)
  | run (error : RunError)
  /-- the program still runs after the given number of statements -/
  | limit (statements : Int)
  /-- the counter lies before the first statement -/
  | astray (counter : Int)

namespace Failure

/-- The name of the kind of a failure. -/
def name : Failure → String
  | load _ _ => "LoadError"
  | parse error =>
    match error.complaint with
    | .unreadable _ => "ValueError"
    | _ => "ParseError"
  | run error => error.name
  | limit _ => "StepLimitError"
  | astray _ => "IndexError"

/-- The wording of a failure. -/
def message : Failure → String
  | load path reason => "Could not load script '" ++ path ++ "': " ++ reason
  | parse error => error.message
  | run error => error.message
  | limit statements => stepLimitMessage statements
  | astray counter => Index.complaint counter

/-- The name and the wording. -/
def report (f : Failure) : String := f.name ++ ": " ++ f.message

end Failure

/-- The failure of a run, `limit` being the number of statements it was
    allowed. -/
def Ending.failure? (limit : Int) : Ending → Option Failure
  | finished => none
  | failed error => some (.run error)
  | astray counter => some (.astray counter)
  | unfinished => some (.limit limit)

end GotoBasic
