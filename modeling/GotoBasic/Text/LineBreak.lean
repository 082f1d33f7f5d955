/-
  Line breaks of a stored text.

  * `unifyBreaks cs`: a carriage return, alone or with the line feed right
    after it, becomes one line feed;
  * `lines texts`: the texts as lines.
-/

namespace GotoBasic.Text

/-- Adds `c` to the reversed text read so far; the flag tells whether the last
    character read was a carriage return, to which a line feed still belongs. -/
def addUnified : List Char × Bool → Char → List Char × Bool
  | (read, afterReturn), c =>
    if c = '\r' then ('\n' :: read, true)
    else if c = '\n' ∧ afterReturn = true then (read, false)
    else (c :: read, false)

/-- The text with every line break written as one line feed. -/
def unifyBreaks (cs : List Char) : List Char := (cs.foldl addUnified ([], false)).1.reverse

/-- Texts as lines, each with a line break at its end. -/
def lines (texts : List String) : String := String.join (texts.map (· ++ "\n"))

end GotoBasic.Text
