/-
  Settings from the environment.

  * `Settings.read`: the limit on statements, the host and the port, each with
    its default; a limit that is no whole number is reported before a port
    that is none.
-/
import GotoBasic.Settings.Integer

namespace GotoBasic

/-- The settings of the service and its launcher. -/
structure Settings where
  statementLimit : Int
  host : String
  port : Int

namespace Settings

/-- The number of statements that a program may execute. -/
def readLimit (text : Option String) : Except IntegerFault Int := Integer.read (text.getD "100000")

/-- The host that the service listens on. -/
def readHost (text : Option String) : String := text.getD "127.0.0.1"

/-- The port that the service listens on. -/
def readPort (text : Option String) : Except IntegerFault Int := Integer.read (text.getD "8000")

/-- The settings with the given texts. -/
def read (limit host port : Option String) : Except IntegerFault Settings := do
  let statementLimit ← readLimit limit
  let port ← readPort port
  return { statementLimit, host := readHost host, port }

end Settings

end GotoBasic
