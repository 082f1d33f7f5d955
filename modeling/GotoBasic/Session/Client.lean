/-
  What the client of an interactive session does while a program runs.

  The client is heard only when the run pauses.  At a pause its events are
  taken in order up to a wait, which lasts as many pauses as it says.

  * `ClientEvent`: a message, a disconnection, or a wait;
  * `Client.hear events`: the events left after a pause, and whether the
    client asked to stop.  A message that is no object ends the hearing.
-/
import GotoBasic.Json

namespace GotoBasic

/-- An event on the client's side. -/
inductive ClientEvent where
  | message (json : Json)
  | disconnect
  /-- nothing happens for so many pauses -/
  | wait (pauses : Nat)

namespace Client

/-- Whether the fields of a message ask to stop. -/
def asksToStop (fields : List (String × Json)) : Bool :=
  match fields.lookup "type" with
  | some (.string type) => type == "stop"
  | _ => false

/-- Hears the client at a pause. -/
def hear : List ClientEvent → List ClientEvent × Bool
  | [] => ([], false)
  | .wait 0 :: events => hear events
  | .wait (n + 1) :: events => (.wait n :: events, false)
  | .disconnect :: _ => ([], true)
  | .message (.object fields) :: events => if asksToStop fields then ([], true) else hear events
  | .message _ :: _ => ([], false)

end Client

end GotoBasic
