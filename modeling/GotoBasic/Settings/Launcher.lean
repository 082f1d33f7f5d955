/-
  The launcher of the editor: checks that its files are there, then serves
  until it is interrupted, and opens a browser after a moment.

  * `Launcher.run`: what is printed, which calls are made to the outside in
    which order, and how it ends.
-/
import GotoBasic.Path
import GotoBasic.Settings.Basic
import GotoBasic.Settings.LogLevel
import GotoBasic.Text.LineBreak

namespace GotoBasic.Launcher

/-- A call to the outside. -/
inductive Call where
  /-- sets a timer that opens the browser after so many seconds -/
  | timer (seconds : String)
  | timerStart
  | serve (app host : String) (port : Int)
  | openPage (url : String)
  | timerCancel

/-- The world around the launcher. -/
structure World where
  host : Option String
  port : Option String
  logLevel : Option String
  /-- the paths of files that do not exist -/
  missing : List String
  /-- whether the timer goes off while serving -/
  fires : Bool
  /-- whether serving is interrupted -/
  interrupted : Bool
  /-- the error with which serving fails -/
  failure : Option String

/-- Whether the file at a path does not exist. -/
def World.misses (w : World) (path : String) : Bool :=
  w.missing.any fun other => Path.names other == Path.names path

/-- How the launcher ends. -/
inductive Exit where
  | code (n : Nat)
  | failed (message : String)

/-- What the launcher did. -/
structure Result where
  level : LogLevel
  stdout : String
  calls : List Call
  exit : Exit

/-- The files without which the service cannot start. -/
def requiredFiles : List String :=
  ["main.py", "lexer.py", "parser.py", "interpreter.py", "jasic_ast.py", "values.py", "errors.py",
   "jasic.py"]

/-- The page of the editor. -/
def indexPage : String := "static/index.html"

/-- The application that is served. -/
def app : String := "main:app"

/-- The first lines. -/
def banner : List String := ["🚀 Jasic IDE", String.ofList (List.replicate 50 '=')]

/-- The lines about required files that do not exist. -/
def missingLines (names : List String) : List String :=
  "❌ Required files not found:" :: names.map ("   - " ++ ·)

/-- The address of the service. -/
def url (host : String) (port : Int) : String := "http://" ++ host ++ ":" ++ toString port

/-- Serves on a host and port, after the lines of `before`. -/
def serve (w : World) (level : LogLevel) (host : String) (port : Int) (before : List String) :
    Result :=
  let page := url host port
  let opened := if w.fires then [Call.openPage page] else []
  let openedLines := if w.fires then ["🌐 Opening browser..."] else []
  let calls := [.timer "2.0", .timerStart, .serve app host port] ++ opened ++ [.timerCancel]
  let byeLines := if w.interrupted then ["\n👋 Server stopped. Bye!"] else []
  let exit := match w.interrupted, w.failure with
    | false, some message => .failed message
    | _, _ => .code 0
  let starting := "🔄 Starting FastAPI server on " ++ page ++ " ..."
  ⟨level, Text.lines (before ++ starting :: openedLines ++ byeLines), calls, exit⟩

/-- Runs the launcher. -/
def run (w : World) : Except IntegerFault Result := do
  let host := Settings.readHost w.host
  let port ← Settings.readPort w.port
  let level := LogLevel.choose w.logLevel "INFO"
  match requiredFiles.filter w.misses with
  | [] =>
    let warning :=
      if w.misses indexPage then
        ["⚠️  static/index.html not found; only the /api endpoints will be served."]
      else []
    return serve w level host port (banner ++ warning)
  | names => return ⟨level, Text.lines (banner ++ missingLines names), [], .code 1⟩

end GotoBasic.Launcher
