/-
  The command: runs the script whose path is its only argument.

  The lines that a script prints and the log lines of its jumps are written as
  they come; `CommandLine.run` says what they are.
-/
import GotoBasic.Script.CommandLine

namespace GotoBasic

/-- The number and wording of an error of the file system. -/
def osError : IO.Error → Option (UInt32 × String)
  | .noFileOrDirectory _ code details | .interrupted _ code details => some (code, details)
  | .permissionDenied _ code details | .resourceExhausted _ code details
  | .inappropriateType _ code details | .noSuchThing _ code details
  | .invalidArgument _ code details => some (code, details)
  | .otherError code details | .hardwareFault code details => some (code, details)
  | _ => none

/-- The number of an error, which some calls give with its sign changed. -/
def osNumber (code : UInt32) : Nat := if code.toNat < 0x80000000 then code.toNat else (-code).toNat

/-- Why the script at `path` could not be loaded. -/
def ioFailure (path : String) (e : IO.Error) : Failure :=
  match osError e with
  | none => .load path (toString e)
  | some (code, details) =>
    match FileFault.ofNumber? (osNumber code) with
    | some fault => Script.unread path fault
    | none => .load path (s!"[Errno {osNumber code}] {details}: " ++ Text.quoted path)

/-- The text of the script at `path`. -/
def loadScript (path : String) : IO (Except Failure String) := do
  try
    let bytes ← IO.FS.readBinFile path
    return Script.ofBytes path bytes.toList
  catch e => return .error (ioFailure path e)

/-- Runs a machine to its end, writing lines as they come. -/
partial def runLive (debug : Bool) (m : Machine) : IO (Option Failure) := do
  match m.step with
  | .halted => return none
  | .astray => return some (.astray m.counter)
  | .failed error _ => return some (.run error)
  | .ran effect next =>
    if let some line := effect.line? then IO.println line
    if debug then
      if let some line := CommandLine.effectLine? effect then IO.eprintln line
    runLive debug next

/-- Runs the text of a script. -/
def runScript (debug : Bool) (source : Except Failure String) : IO (Option Failure) := do
  match source with
  | .error failure => return some failure
  | .ok source =>
    match Program.parse source with
    | .error error => return some (.parse error)
    | .ok program =>
      if debug then IO.eprintln (CommandLine.parsedLine program)
      runLive debug (.start program)

end GotoBasic

/-- The command. -/
def main (args : List String) : IO UInt32 := do
  match args with
  | [path] =>
    let requested ← IO.getEnv GotoBasic.CommandLine.levelVariable
    let level := GotoBasic.LogLevel.choose requested "WARNING"
    match ← GotoBasic.runScript level.showsDebug (← GotoBasic.loadScript path) with
    | none => return 0
    | some failure =>
      (← IO.getStdout).flush
      IO.eprintln failure.report
      return 1
  | _ =>
    IO.println GotoBasic.CommandLine.usage
    return 0
