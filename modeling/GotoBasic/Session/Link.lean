/-
  The link to the client of an interactive session.

  * `Message`: what is sent to the client, and its JSON form;
  * `SendFault`: how sending fails;
  * `Link`: the messages sent so far and the sends attempted; from some send
    on, all of them may fail (`Link.send`).
-/
import GotoBasic.Json

namespace GotoBasic

/-- A message to the client. -/
inductive Message where
  /-- the program starts to run -/
  | started
  /-- the program printed a line -/
  | output (line : String)
  /-- the program ran to its end, or until the client stopped it -/
  | finished (stopped : Bool)
  /-- the program failed -/
  | aborted (error : String)
  /-- the session failed -/
  | trouble (report : String)
  deriving DecidableEq

/-- The JSON form of a message. -/
def Message.toJson : Message → Json
  | started => .tagged "execution_started" []
  | output line => .tagged "output" [("data", .string line)]
  | finished stopped =>
    .tagged "execution_finished" [("success", .bool true), ("stopped", .bool stopped)]
  | aborted error =>
    .tagged "execution_finished" [("success", .bool false), ("error", .string error)]
  | trouble report => .tagged "error" [("message", .string report)]

/-- How sending a message fails. -/
inductive SendFault where
  /-- the link is closed already -/
  | closed
  /-- the message is refused -/
  | refused
  /-- the client went away -/
  | disconnected
  deriving DecidableEq

/-- The name of the kind of a fault. -/
def SendFault.name : SendFault → String
  | closed => "RuntimeError"
  | refused => "ValueError"
  | disconnected => "WebSocketDisconnect"

/-- The wording of a fault. -/
def SendFault.message : SendFault → String
  | closed | refused => "send failed"
  | disconnected => "1006"

/-- From the send number `after` on, counted from zero, all sends fail. -/
structure Breakdown where
  after : Nat
  fault : SendFault

/-- A link: the reversed list of messages sent, the number of sends attempted,
    and when it breaks down. -/
structure Link where
  sent : List Message
  attempts : Nat
  breakdown : Option Breakdown

namespace Link

/-- The link on which nothing has been sent. -/
def fresh (breakdown : Option Breakdown) : Link := ⟨[], 0, breakdown⟩

/-- The fault of the next send. -/
def nextFault? (l : Link) : Option SendFault :=
  match l.breakdown with
  | none => none
  | some b => if b.after ≤ l.attempts then some b.fault else none

/-- Sends a message. -/
def send (l : Link) (message : Message) : Option SendFault × Link :=
  match l.nextFault? with
  | some fault => (some fault, { l with attempts := l.attempts + 1 })
  | none => (none, { l with attempts := l.attempts + 1, sent := message :: l.sent })

/-- Sends messages in order, up to the first that fails. -/
def sendAll (l : Link) : List Message → Option SendFault × Link
  | [] => (none, l)
  | message :: later =>
    match l.send message with
    | (some fault, l) => (some fault, l)
    | (none, l) => l.sendAll later

end Link

end GotoBasic
