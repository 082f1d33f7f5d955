/-
  Streamed runs: the lines that a program prints are sent as they come.

  After each statement the printed lines are sent; after every hundredth the
  run pauses and hears the client, who may stop it.  The limit on statements
  is checked before each one.

  * `Stream.run limit s`: how the run ended, and the stream then.
-/
import GotoBasic.Machine.Run
import GotoBasic.Session.Client
import GotoBasic.Session.Link

namespace GotoBasic

/-- A run whose lines go to a client. -/
structure Stream where
  machine : Machine
  /-- lines printed and not yet sent -/
  pending : List String
  /-- whether the run is to stop -/
  stopping : Bool
  client : List ClientEvent
  link : Link

/-- How a streamed run ends. -/
inductive StreamEnding where
  /-- in the program: it ended, failed, or still runs -/
  | program (ending : Ending)
  /-- a line could not be sent -/
  | broken (fault : SendFault)

namespace Stream

/-- The number of statements between two pauses. -/
def pauseEvery : Nat := 100

/-- A stream at the start of a program. -/
def start (p : Program) (stopping : Bool) (client : List ClientEvent) (link : Link) : Stream :=
  ⟨.start p, [], stopping, client, link⟩

/-- Sends the pending lines. -/
def flush (s : Stream) : Option SendFault × Stream :=
  let (fault, link) := s.link.sendAll (s.pending.map .output)
  (fault, { s with pending := [], link })

/-- Ends the run, after sending what is pending. -/
def close (s : Stream) (ending : StreamEnding) : StreamEnding × Stream :=
  match s.flush with
  | (none, s) => (ending, s)
  | (some fault, s) => (.broken fault, s)

/-- Hears the client. -/
def pause (s : Stream) : Stream :=
  let (client, stop) := Client.hear s.client
  { s with client, stopping := s.stopping || stop }

/-- Pauses if `steps` statements make up full hundreds. -/
def pauseAfter (steps : Nat) (s : Stream) : Stream :=
  if steps % pauseEvery = 0 then s.pause else s

/-- Runs a stream that has executed `steps` statements. -/
def runFrom (limit : Int) (steps : Nat) (s : Stream) : StreamEnding × Stream :=
  if s.machine.running && !s.stopping then
    if limit ≤ steps then s.close (.program .unfinished)
    else
      match s.machine.step with
      | .halted => s.close (.program .finished)
      | .astray => s.close (.program (.astray s.machine.counter))
      | .failed error machine => { s with machine }.close (.program (.failed error))
      | .ran effect machine =>
        match { s with machine, pending := s.pending ++ effect.line?.toList }.flush with
        | (some fault, s) => s.close (.broken fault)
        | (none, s) => runFrom limit (steps + 1) (s.pauseAfter (steps + 1))
  else s.close (.program .finished)
termination_by (limit - steps).toNat

/-- Runs a stream for at most `limit` statements. -/
def run (limit : Int) (s : Stream) : StreamEnding × Stream := runFrom limit 0 s

end Stream

end GotoBasic
