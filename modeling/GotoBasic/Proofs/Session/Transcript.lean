/-
  What an interactive session sends to its client.

  * `Ending.notice`: the message that reports how a run ended;
  * `Session.transcript_of_ends`: a session on a link that does not break down
    sends that the program starts, then the lines that it prints before it ends
    or is stopped, and then how it ended.
-/
import GotoBasic.Session.Interactive
import GotoBasic.Proofs.Session.Stream

namespace GotoBasic

/-- The message that reports how a run ended that was stopped or not. -/
def Ending.notice (limit : Int) (stopped : Bool) (ending : Ending) : Message :=
  match ending.failure? limit with
  | none => .finished stopped
  | some failure => .aborted failure.report

namespace Session

variable {first : Json} {code : String} {p : Program} {client : List ClientEvent}
  {sent : List Message} {limit : Int} {ending : Ending} {s : Stream}

theorem ofSend_carrying (sent : List Message) (message : Message) :
    ofSend ((Link.carrying sent).send message) = (none, .carrying (sent ++ [message])) := by
  simp [ofSend, Link.send_carrying]

/-- The end of a run is reported once. -/
theorem conclude_carrying (hlink : s.link = .carrying sent)
    (ha : ∀ counter, ending ≠ .astray counter) :
    conclude limit (.program ending, s) =
      (none, .carrying (sent ++ [ending.notice limit s.stopping])) := by
  cases ending with
  | finished | failed | unfinished => rw [conclude, hlink, ofSend_carrying]; rfl
  | astray counter => exact absurd rfl (ha counter)

/-- **The transcript of a session.**  The parsed program ends in one of the
    ways, being stopped when the client does so.  For each of them, exactly
    these messages are sent: the start, each line that the executed statements
    printed, in order, and the end. -/
theorem transcript_of_ends (hcode : source first = .ok code)
    (hparse : Program.parse code = .ok p) (ho : Client.Objects client) (limit : Int) :
    (∃ es m stopped ending,
      (Machine.start p).Ends limit (Client.stopTime client) es m stopped ending) ∧
    ∀ es m stopped ending,
      (Machine.start p).Ends limit (Client.stopTime client) es m stopped ending →
      run (some first) client limit none =
        ⟨true,
         .started :: (es.filterMap Effect.line?).map .output ++ [ending.notice limit stopped],
         (es.filterMap Effect.line?).length + 2, none⟩ := by
  refine ⟨(Machine.sound_start p).exists_ends (proper_of_parse hparse) limit _, ?_⟩
  intro es m stopped ending h
  have ha : ∀ counter, ending ≠ .astray counter := by
    rintro counter rfl
    cases h
  obtain ⟨s, hrun, -, -, rfl, hlink⟩ := Stream.run_of_ends ho [.started] h
  have hexecute : execute limit client (.carrying []) code =
      (none, .carrying (.started :: (es.filterMap Effect.line?).map .output ++
        [ending.notice limit s.stopping])) := by
    simp only [execute, hparse, Link.send_carrying, List.nil_append]
    rw [hrun, conclude_carrying hlink ha]
    rfl
  simp only [run, hcode, Link.fresh_none]
  rw [hexecute]
  simp [settle, close, Link.carrying]

theorem steps_forever (n : Nat) :
    (Machine.start forever).Steps
      (List.replicate n [.printed "x", .jumped 1 (.text "a") 0]).flatten (.start forever) := by
  induction n with
  | zero => exact .refl _
  | succ n ih => exact .next rfl (.next rfl ih)

/-- The program that prints for ever is stopped at the first pause, although
    it reaches its limit there. -/
theorem transcript_of_ends_forever :
    run (some (.object [("code", .string ":a print \"x\" goto a")]))
        [.message (.object [("type", .string "stop")])] 100 none =
      ⟨true, .started :: List.replicate 50 (.output "x") ++ [.finished true], 52, none⟩ := by
  have ho : Client.Objects [.message (.object [("type", .string "stop")])] := by
    simp [Client.Objects]
  have hstop : Client.stopTime [.message (.object [("type", .string "stop")])] = (100 : Nat) := by
    have hs : ClientEvent.stops (.message (.object [("type", .string "stop")])) = true := by decide
    simp [Client.stopTime, Client.waits_cons, hs, Stream.pauseEvery]
  have hends : (Machine.start forever).Ends 100 (Client.stopTime _) _ _ true .finished :=
    .stopped (steps_forever 50) hstop.symm (by decide)
  exact (transcript_of_ends rfl parse_forever ho 100).2 _ _ _ _ hends

end Session

end GotoBasic
