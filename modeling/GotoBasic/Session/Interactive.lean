/-
  Interactive sessions: a client sends a program text, which is run while its
  lines are streamed back.

  * `Session.source`: the text in the client's first message; a code field
    that is missing or empty is the empty text, one that is no text at all is
    a mistake;
  * `Session.execute`: parses and runs a text, reporting to the client;
  * `Session.run`: the whole session.  A client that goes away ends it
    quietly; any other trouble is reported to the client once, and a link that
    turns out to be closed then is no further trouble.
-/
import GotoBasic.Failure
import GotoBasic.Session.Stream

namespace GotoBasic

/-- What came of a session: whether the client was admitted, the messages
    sent, the number of sends attempted, and the fault that ended the session
    unexpectedly. -/
structure Transcript where
  accepted : Bool
  sent : List Message
  attempts : Nat
  escaped : Option SendFault

namespace Session

/-- The report of the mistake of asking an item for something that its kind
    does not have. -/
def lacks (json : Json) (feature : String) : String :=
  "AttributeError: " ++ lacksMessage json.kind feature

/-- The program text in the client's first message, or what is wrong. -/
def source : Json → Except String String
  | .object fields =>
    match (fields.lookup "code").getD (.string "") with
    | .string code => .ok code
    | code => if code.isEmpty then .ok "" else .error (lacks code "endswith")
  | first => .error (lacks first "get")

/-- What ends the execution of a text before its last message is sent. -/
inductive Trouble where
  | fault (fault : SendFault)
  /-- the counter lies before the first statement -/
  | astray (counter : Int)

/-- The trouble of a send. -/
def ofSend (result : Option SendFault × Link) : Option Trouble × Link :=
  (result.1.map .fault, result.2)

/-- Reports how a streamed run ended. -/
def conclude (limit : Int) : StreamEnding × Stream → Option Trouble × Link
  | (.broken fault, s) => (some (.fault fault), s.link)
  | (.program .finished, s) => ofSend (s.link.send (.finished s.stopping))
  | (.program (.failed error), s) =>
    ofSend (s.link.send (.aborted (Failure.run error).report))
  | (.program .unfinished, s) =>
    ofSend (s.link.send (.aborted (Failure.limit limit).report))
  | (.program (.astray counter), s) => (some (.astray counter), s.link)

/-- Parses and runs a program text. -/
def execute (limit : Int) (client : List ClientEvent) (link : Link) (code : String) :
    Option Trouble × Link :=
  match Program.parse code with
  | .error error => ofSend (link.send (.aborted (Failure.parse error).report))
  | .ok program =>
    match link.send .started with
    | (some fault, link) => (some (.fault fault), link)
    | (none, link) => conclude limit ((Stream.start program false client link).run limit)

/-- The end of a session on a link. -/
def close (link : Link) (escaped : Option SendFault) : Transcript :=
  ⟨true, link.sent.reverse, link.attempts, escaped⟩

/-- Reports trouble to the client and ends the session. -/
def complain (link : Link) (report : String) : Transcript :=
  match link.send (.trouble report) with
  | (some .closed, link) | (none, link) => close link none
  | (some fault, link) => close link (some fault)

/-- Ends a session whose text was executed. -/
def settle : Option Trouble × Link → Transcript
  | (none, link) | (some (.fault .disconnected), link) => close link none
  | (some (.fault fault), link) => complain link (fault.name ++ ": " ++ fault.message)
  | (some (.astray counter), link) => complain link (Failure.astray counter).report

/-- A session: the client's first message, if there is one, its later events,
    the number of statements allowed, and when the link breaks down. -/
def run (first : Option Json) (client : List ClientEvent) (limit : Int)
    (breakdown : Option Breakdown) : Transcript :=
  let link := Link.fresh breakdown
  match first with
  | none => close link none
  | some json =>
    match source json with
    | .error report => complain link report
    | .ok code => settle (execute limit client link code)

end Session

end GotoBasic
