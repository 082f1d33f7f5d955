/-
  Log levels, chosen by name.

  * `LogLevel.named?`: the level with a name in capitals;
  * `LogLevel.choose requested fallback`: the requested level, its name being
    taken in capitals; without a request the fallback is taken so.  If that
    names no level, the fallback counts as it is written, and a fallback that
    names no level either gives a level without rank.
-/
import GotoBasic.Text.Capital

namespace GotoBasic

/-- A level with its rank, or the text for one that has no rank. -/
inductive LogLevel where
  | ranked (rank : Nat)
  | unranked (text : String)
  deriving DecidableEq

namespace LogLevel

/-- The names of the levels with their ranks. -/
def ranks : List (String × Nat) :=
  [("CRITICAL", 50), ("FATAL", 50), ("ERROR", 40), ("WARN", 30), ("WARNING", 30), ("INFO", 20),
   ("DEBUG", 10), ("NOTSET", 0)]

/-- The level with the given name. -/
def named? (name : String) : Option LogLevel := (ranks.lookup name).map .ranked

/-- The level with the given name, or one without rank. -/
def named (name : String) : LogLevel := (named? name).getD (.unranked ("Level " ++ name))

/-- The level that is requested, or else the fallback. -/
def choose (requested : Option String) (fallback : String) : LogLevel :=
  match named? (Text.capitalized (requested.getD fallback)) with
  | some level => level
  | none => named fallback

/-- Whether lines for debugging are logged at this level. -/
def showsDebug : LogLevel → Bool
  | ranked rank => rank ≤ 10
  | unranked _ => false

end LogLevel

end GotoBasic
