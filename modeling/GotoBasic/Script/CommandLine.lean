/-
  The command line: runs the script whose path is the only argument.

  * `CommandLine.run`: what is written to the two output streams, and the exit
    code.  A path that holds a null character is refused before anything is
    tried (`Exit.nullInPath`).
-/
import GotoBasic.Script.Load
import GotoBasic.Settings.LogLevel

namespace GotoBasic.CommandLine

/-- What is printed when there is not exactly one argument. -/
def usage : String :=
  "Usage: jasic <script>\nWhere <script> is a relative path to a .jas script to run."

/-- The variable of the environment that requests a log level. -/
def levelVariable : String := "JASIC_LOG_LEVEL"

/-- How the command ends. -/
inductive Exit where
  | code (n : Nat)
  | nullInPath
  deriving DecidableEq

/-- What a command wrote to its output streams, and how it ended. -/
structure Result where
  stdout : String
  stderr : String
  exit : Exit

/-- A line for debugging in the log. -/
def debugLine (text : String) : String := "DEBUG interpreter: " ++ text

/-- The log line of a program that was parsed. -/
def parsedLine (p : Program) : String :=
  debugLine ("Parsed " ++ toString p.statements.size ++ " statements, " ++
    toString p.labels.length ++ " labels")

/-- The log line of an effect; only jumps have one. -/
def effectLine? : Effect → Option String
  | .jumped origin label target =>
    some (debugLine ("Jump from " ++ toString origin ++ " to '" ++ label.toText ++ "' (" ++
      toString target ++ ")"))
  | _ => none

/-- What is written when a script ran, `level` being the log level. -/
def ofRun (level : LogLevel) (fuel : Nat) (p : Program) : Result :=
  let r := (Machine.start p).run fuel
  let log := if level.showsDebug then parsedLine p :: r.effects.filterMap effectLine? else []
  match r.ending.failure? fuel with
  | none => ⟨Text.lines r.lines, Text.lines log, .code 0⟩
  | some failure => ⟨Text.lines r.lines, Text.lines (log ++ [failure.report]), .code 1⟩

/-- What is written when the text of a script was loaded, or was not. -/
def ofSource (level : LogLevel) (fuel : Nat) (source : Except Failure String) : Result :=
  match source with
  | .error failure => ⟨"", Text.lines [failure.report], .code 1⟩
  | .ok source =>
    match Program.parse source with
    | .error error => ⟨"", Text.lines [(Failure.parse error).report], .code 1⟩
    | .ok program => ofRun level fuel program

/-- Runs the command: the files, the requested log level and the arguments.
    `fuel` bounds the statements that are executed. -/
def run (fs : Files) (requested : Option String) (fuel : Nat) (args : List String) : Result :=
  match args with
  | [path] =>
    if path.toList.contains '\x00' then ⟨"", "", .nullInPath⟩
    else ofSource (.choose requested "WARNING") fuel (Script.load fs path)
  | _ => ⟨Text.lines [usage], "", .code 0⟩

end GotoBasic.CommandLine
