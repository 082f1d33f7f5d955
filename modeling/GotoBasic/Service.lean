/-
  The answers of the editor's service.

  * `Service.runSource`: runs a program text for a bounded number of
    statements; the lines printed and the failure, if any;
  * `Service.compile`, `Service.run`, `Service.examples`: the answers to the
    requests to compile a text, to run it, and to list sample programs.
-/
import GotoBasic.Failure
import GotoBasic.Program.Outline

namespace GotoBasic.Service

/-- Runs a program text for at most `limit` statements. -/
def runSource (limit : Int) (source : String) : List String × Option Failure :=
  match Program.parse source with
  | .error error => ([], some (.parse error))
  | .ok program =>
    let (lines, _, ending) := (Machine.start program).runBounded limit
    (lines, ending.failure? limit)

/-- A token as a JSON value. -/
def token (t : Token) : Json :=
  .tagged t.kind.name
    [("text", .string t.text), ("line", .integer t.place.line),
     ("column", .integer t.place.column)]

/-- The tokens, outline and labels of a program text, or why there is none. -/
def compile (source : String) : Json :=
  let tokens := Token.scan source
  match Program.ofTokens tokens with
  | .error error => .object [("success", .bool false), ("errors", .strings [error.message])]
  | .ok program =>
    .object
      [("success", .bool true), ("tokens", .array (tokens.map token)),
       ("ast", program.outline), ("labels", program.labelOutline)]

/-- The lines that a program text prints, and why it fails if it does. -/
def run (limit : Int) (source : String) : Json :=
  match runSource limit source with
  | (lines, none) => .object [("success", .bool true), ("output", .strings lines)]
  | (lines, some failure) =>
    .object
      [("success", .bool false), ("output", .strings lines),
       ("error", .string failure.report)]

/-- A sample program. -/
structure Sample where
  key : String
  name : String
  code : String

/-- The sample programs. -/
def samples : List Sample :=
  [⟨"hello", "Hello", "' greet the world\nprint \"hello, \" + \"world\"\n"⟩,
   ⟨"count", "Count to five",
    "count = 0\n:loop\ncount = count + 1\nprint count\nif count < 5 then loop\nprint \"done\"\n"⟩,
   ⟨"compare", "Larger of two",
    "a = 7\nb = 12\nif a > b then first\nprint b\ngoto end\n:first\nprint a\n:end\n"⟩]

/-- The sample programs by their keys. -/
def examples : Json :=
  .object (samples.map fun s =>
    (s.key, .object [("name", .string s.name), ("code", .string s.code)]))

end GotoBasic.Service
