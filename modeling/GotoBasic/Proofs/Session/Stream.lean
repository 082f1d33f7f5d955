/-
  Streamed runs execute the same statements as plain ones, and lose no line.

  * `Client.stopTime`: the number of statements after which the client stops a
    run, or infinity;
  * `Stream.Live`: an invariant of streams between two statements: all lines
    have been sent, and the run is to stop if and only if it is time;
  * `Stream.run_of_ends`: a streamed run finds how its machine ends;
  * `drivers_agree`: so all loops agree about a program that is parsed from a
    text.
-/
import GotoBasic.Service
import GotoBasic.Session.Stream
import GotoBasic.Proofs.Machine.Steps

namespace GotoBasic

/-! ## When the client stops a run -/

/-- The client asks to stop, or goes away. -/
def ClientEvent.stops : ClientEvent → Bool
  | message (.object fields) => Client.asksToStop fields
  | disconnect => true
  | message _ | wait _ => false

/-- The number of pauses that an event lasts. -/
def ClientEvent.pauses : ClientEvent → Nat
  | wait n => n
  | message _ | disconnect => 0

namespace Client

/-- All messages are objects. -/
def Objects (events : List ClientEvent) : Prop :=
  ∀ json, .message json ∈ events → ∃ fields, json = .object fields

/-- The number of pauses before the first event that stops a run; infinity, if
    there is none. -/
def waits (events : List ClientEvent) : ℕ∞ :=
  if events.any ClientEvent.stops then
    ((events.takeWhile (!·.stops)).map ClientEvent.pauses).sum
  else ⊤

/-- The number of statements after which a run is stopped. -/
def stopTime (events : List ClientEvent) : ℕ∞ := Stream.pauseEvery * (waits events + 1)

theorem waits_cons (event : ClientEvent) (events : List ClientEvent) :
    waits (event :: events) = if event.stops then 0 else event.pauses + waits events := by
  cases hs : event.stops <;> cases ha : events.any ClientEvent.stops <;> simp [waits, hs, ha]

theorem Objects.tail {event : ClientEvent} {events : List ClientEvent}
    (h : Objects (event :: events)) : Objects events :=
  fun json hj => h json (List.mem_cons_of_mem _ hj)

theorem Objects.hear {events : List ClientEvent} (h : Objects events) :
    Objects (Client.hear events).1 := by
  fun_induction Client.hear events with
  | case1 | case4 | case5 | case7 => intro json hj; simp at hj
  | case2 events ih => exact ih h.tail
  | case3 n events => intro json hj; exact h json (by simpa using hj)
  | case6 fields events _ ih => exact ih h.tail

/-- At a pause the client stops the run, or one pause of its waits is over. -/
theorem hear_cases {events : List ClientEvent} (h : Objects events) :
    (hear events).2 = true ∧ waits events = 0 ∨
      (hear events).2 = false ∧ waits events = waits (hear events).1 + 1 := by
  fun_induction hear events with
  | case1 => exact .inr ⟨rfl, by simp [waits]⟩
  | case2 events ih => simpa [waits_cons, ClientEvent.stops, ClientEvent.pauses] using ih h.tail
  | case3 n events =>
    refine .inr ⟨rfl, ?_⟩
    simp [waits_cons, ClientEvent.stops, ClientEvent.pauses, add_right_comm]
  | case4 => exact .inl ⟨rfl, by simp [waits_cons, ClientEvent.stops]⟩
  | case5 fields events hs => exact .inl ⟨rfl, by simp [waits_cons, ClientEvent.stops, hs]⟩
  | case6 fields events hs ih =>
    simpa [waits_cons, ClientEvent.stops, ClientEvent.pauses, hs] using ih h.tail
  | case7 json events hno =>
    obtain ⟨fields, rfl⟩ := h json (by simp)
    exact (hno fields rfl).elim

end Client

/-! ## Sending on a link that does not break down -/

namespace Link

/-- A link without breakdown, on which messages have been sent. -/
def carrying (sent : List Message) : Link := ⟨sent.reverse, sent.length, none⟩

theorem fresh_none : fresh none = carrying [] := rfl

theorem send_carrying (sent : List Message) (message : Message) :
    (carrying sent).send message = (none, carrying (sent ++ [message])) := by
  simp [send, nextFault?, carrying]

theorem sendAll_carrying (sent messages : List Message) :
    (carrying sent).sendAll messages = (none, carrying (sent ++ messages)) := by
  induction messages generalizing sent with
  | nil => simp [sendAll]
  | cons message later ih => simp [sendAll, send_carrying, ih]

end Link

/-! ## Streams -/

namespace Stream

/-- The number of statements at the next pause. -/
def nextPause (steps : Nat) : Nat := pauseEvery * (steps / pauseEvery + 1)

theorem lt_nextPause (steps : Nat) : steps < nextPause steps := by
  simp only [nextPause, pauseEvery]
  omega

theorem nextPause_of_pause {steps : Nat} (h : (steps + 1) % pauseEvery = 0) :
    nextPause steps = steps + 1 ∧ nextPause (steps + 1) = steps + 1 + pauseEvery := by
  simp only [nextPause, pauseEvery] at h ⊢
  omega

theorem nextPause_of_no_pause {steps : Nat} (h : (steps + 1) % pauseEvery ≠ 0) :
    nextPause (steps + 1) = nextPause steps := by
  simp only [nextPause, pauseEvery] at h ⊢
  omega

/-- A stream that has executed `steps` statements is to stop if and only if
    these are `stop` or more; until then, its client stops it after `stop`
    statements. -/
structure Timed (stop : ℕ∞) (steps : Nat) (s : Stream) : Prop where
  stopping : s.stopping = true ↔ stop ≤ steps
  objects : Client.Objects s.client
  due : steps < stop → stop = nextPause steps + pauseEvery * Client.waits s.client

variable {stop : ℕ∞} {steps : Nat} {s : Stream}

theorem Timed.of_due (hgo : s.stopping = false) (ho : Client.Objects s.client)
    (hdue : stop = nextPause steps + pauseEvery * Client.waits s.client) : s.Timed stop steps := by
  have hlt : (steps : ℕ∞) < stop := by
    calc (steps : ℕ∞) < nextPause steps := Nat.cast_lt.2 (lt_nextPause steps)
      _ ≤ nextPause steps + pauseEvery * Client.waits s.client := le_self_add
      _ = stop := hdue.symm
  exact ⟨by simp [hgo, hlt], ho, fun _ => hdue⟩

theorem Timed.stopping_eq_false (h : s.Timed stop steps) (hlt : steps < stop) :
    s.stopping = false := by
  rw [← Bool.not_eq_true, h.stopping]
  exact not_le_of_gt hlt

theorem Timed.pauseAfter (h : s.Timed stop steps) (hlt : steps < stop) :
    (s.pauseAfter (steps + 1)).Timed stop (steps + 1) := by
  have hdue := h.due hlt
  have hgo := h.stopping_eq_false hlt
  unfold Stream.pauseAfter
  split
  · rename_i hpause
    obtain ⟨hnow, hnext⟩ := nextPause_of_pause hpause
    rcases Client.hear_cases h.objects with ⟨hstop, hw⟩ | ⟨hgoes, hw⟩
    · -- the client stops the run at this pause
      have hreached : stop = (steps + 1 : Nat) := by simpa [hw, hnow] using hdue
      exact ⟨by simp [Stream.pause, hstop, hreached], h.objects.hear, by simp [hreached]⟩
    · refine .of_due (by simp [Stream.pause, hgo, hgoes]) h.objects.hear ?_
      calc stop = nextPause steps + pauseEvery * Client.waits s.client := hdue
        _ = nextPause (steps + 1) + pauseEvery * Client.waits (Client.hear s.client).1 := by
          rw [hw, hnow, hnext, mul_add, mul_one, Nat.cast_add _ pauseEvery, add_assoc,
            add_comm (_ * _)]
  · rename_i hpause
    exact .of_due hgo h.objects (by rw [nextPause_of_no_pause hpause, hdue])

/-- A stream between two statements: its machine is `m`, and exactly the
    messages `sent` have been sent. -/
structure Live (stop : ℕ∞) (steps : Nat) (m : Machine) (sent : List Message) (s : Stream) : Prop
    extends Timed stop steps s where
  machine : s.machine = m
  pending : s.pending = []
  link : s.link = .carrying sent

theorem live_start (p : Program) {client : List ClientEvent} (ho : Client.Objects client)
    (sent : List Message) :
    (start p false client (.carrying sent)).Live (Client.stopTime client) 0 (.start p) sent := by
  refine ⟨.of_due rfl ho ?_, rfl, rfl, rfl⟩
  simp [Client.stopTime, start, nextPause, mul_add, add_comm]

@[simp] theorem pauseAfter_machine : (s.pauseAfter steps).machine = s.machine := by
  unfold pauseAfter
  split <;> rfl

@[simp] theorem pauseAfter_pending : (s.pauseAfter steps).pending = s.pending := by
  unfold pauseAfter
  split <;> rfl

@[simp] theorem pauseAfter_link : (s.pauseAfter steps).link = s.link := by
  unfold pauseAfter
  split <;> rfl

theorem flush_of_carrying {sent : List Message} (h : s.link = .carrying sent) :
    s.flush =
      (none, { s with pending := [], link := .carrying (sent ++ s.pending.map .output) }) := by
  simp [flush, h, Link.sendAll_carrying]

theorem close_of_pending (h : s.pending = []) (ending : StreamEnding) :
    s.close ending = (ending, s) := by
  cases s
  cases h
  rfl

variable {m m' : Machine} {sent : List Message} {e : Effect} {es : List Effect}

/-- Executing a statement sends the line that it prints. -/
theorem Live.step (h : s.Live stop steps m sent) (hran : m.step = .ran e m')
    (hlt : steps < stop) (limit : Int) (hl : steps < limit) :
    ∃ s' : Stream, s.runFrom limit steps = s'.runFrom limit (steps + 1) ∧
      s'.Live stop (steps + 1) m' (sent ++ e.line?.toList.map .output) := by
  have hr : (s.machine.running && !s.stopping) = true := by
    simp [h.machine, h.stopping_eq_false hlt, Machine.running_of_ran hran]
  let printed : Stream := { s with machine := m', pending := e.line?.toList }
  let sending : Stream :=
    { printed with pending := [], link := .carrying (sent ++ e.line?.toList.map .output) }
  have hflush : printed.flush = (none, sending) := flush_of_carrying h.link
  have htimed : sending.Timed stop steps := ⟨h.stopping, h.objects, h.due⟩
  refine ⟨sending.pauseAfter (steps + 1), ?_, htimed.pauseAfter hlt, ?_, ?_, ?_⟩
  · rw [runFrom, if_pos hr, if_neg (by omega), h.machine, hran]
    simp only [h.pending, List.nil_append]
    rw [hflush]
  · simp [sending, printed]
  · simp [sending]
  · simp [sending]

/-- Executing statements sends the lines that they print, in order. -/
theorem Live.run_steps (h : s.Live stop steps m sent) (hes : m.Steps es m')
    (hstop : (steps + es.length : Nat) ≤ stop) (limit : Int)
    (hl : steps + es.length ≤ limit.toNat) :
    ∃ s' : Stream, s.runFrom limit steps = s'.runFrom limit (steps + es.length) ∧
      s'.Live stop (steps + es.length) m'
        (sent ++ (es.filterMap Effect.line?).map .output) := by
  induction hes generalizing s steps sent with
  | refl => exact ⟨s, rfl, by simpa using h⟩
  | @next m m' m'' e es hran _ ih =>
    have hlen : steps + (e :: es).length = steps + 1 + es.length := by
      rw [List.length_cons]
      omega
    rw [hlen] at hstop hl ⊢
    have hlt : (steps : ℕ∞) < stop := lt_of_lt_of_le (Nat.cast_lt.2 (by omega)) hstop
    obtain ⟨s₁, hrun₁, h₁⟩ := h.step hran hlt limit (by omega)
    obtain ⟨s₂, hrun₂, h₂⟩ := ih h₁ hstop hl
    refine ⟨s₂, hrun₁.trans hrun₂, ?_⟩
    cases hline : e.line? <;> simpa [hline] using h₂

variable {p : Program} {client : List ClientEvent} {stopped : Bool} {ending : Ending}

/-- **A streamed run finds how its machine ends.  By then it has sent the lines
    that were printed, in order, and nothing is left to send.** -/
theorem run_of_ends {limit : Int} (ho : Client.Objects client) (sent : List Message)
    (h : (Machine.start p).Ends limit (Client.stopTime client) es m stopped ending) :
    ∃ s, (start p false client (.carrying sent)).run limit = (.program ending, s) ∧
      s.machine = m ∧ s.pending = [] ∧ s.stopping = stopped ∧
      s.link = .carrying (sent ++ (es.filterMap Effect.line?).map .output) := by
  have hstart := live_start p ho sent
  rw [run]
  cases h with
  | stopped hes hstop hl =>
    obtain ⟨s, hrun, h⟩ := hstart.run_steps hes (by simp [hstop]) limit (by omega)
    have hs : s.stopping = true := h.stopping.2 (by simp [hstop])
    refine ⟨s, ?_, h.machine, h.pending, hs, h.link⟩
    rw [hrun, runFrom, if_neg (by simp [hs]), close_of_pending h.pending]
  | finished hes hr hlt hl =>
    obtain ⟨s, hrun, h⟩ := hstart.run_steps hes (by simpa using hlt.le) limit (by omega)
    have hs := h.stopping_eq_false (by simpa using hlt)
    refine ⟨s, ?_, h.machine, h.pending, hs, h.link⟩
    rw [hrun, runFrom, if_neg (by simp [h.machine, hr]), close_of_pending h.pending]
  | failed hes hstep hlt hl =>
    obtain ⟨s, hrun, h⟩ := hstart.run_steps hes (by simpa using hlt.le) limit (by omega)
    have hs := h.stopping_eq_false (by simpa using hlt)
    have hr := Machine.running_of_failed hstep
    let after : Stream := { s with machine := m }
    have hclose := close_of_pending (s := after) h.pending
    refine ⟨after, ?_, rfl, h.pending, hs, h.link⟩
    rw [hrun, runFrom, if_pos (by simp [h.machine, hr, hs]), if_neg (by omega), h.machine, hstep]
    exact hclose _
  | unfinished hes hr hlt hl =>
    obtain ⟨s, hrun, h⟩ := hstart.run_steps hes (by simpa using hlt.le) limit (by omega)
    have hs := h.stopping_eq_false (by simpa using hlt)
    refine ⟨s, ?_, h.machine, h.pending, hs, h.link⟩
    rw [hrun, runFrom, if_pos (by simp [h.machine, hr, hs]), if_pos (by omega),
      close_of_pending h.pending]

end Stream

/-! ## All loops agree -/

theorem Client.stopTime_nil : stopTime [] = ⊤ := by
  simp [stopTime, waits, Stream.pauseEvery]

/-- **The loops agree about a program that is parsed from a text.**  A program
    ends in one of the ways without a stop.  The bounded loop then gives the
    lines that its statements printed and the failure, if any; the streamed
    run sends these lines and ends in the same way, with the same machine; and
    if the limit is not reached, so does the plain loop.  A text that is not
    parsed prints nothing. -/
theorem drivers_agree (source : String) (limit : Int) :
    (∀ error, Program.parse source = .error error →
      Service.runSource limit source = ([], some (.parse error))) ∧
    ∀ p, Program.parse source = .ok p →
      (∃ es m ending, (Machine.start p).Ends limit ⊤ es m false ending) ∧
      ∀ es m ending, (Machine.start p).Ends limit ⊤ es m false ending →
        (∀ error, ending = .failed error → error.name = "EvalError") ∧
        Service.runSource limit source =
          (es.filterMap Effect.line?, ending.failure? limit) ∧
        (Machine.start p).runBounded limit = (es.filterMap Effect.line?, m, ending) ∧
        (∃ s, (Stream.start p false [] (.fresh none)).run limit = (.program ending, s) ∧
          s.machine = m ∧ s.pending = [] ∧ s.stopping = false ∧
          s.link.sent.reverse = (es.filterMap Effect.line?).map .output) ∧
        (ending ≠ .unfinished → ∀ fuel, es.length < fuel →
          (Machine.start p).run fuel = ⟨m, es, ending⟩) := by
  constructor
  · intro error hparse
    simp [Service.runSource, hparse]
  · intro p hparse
    have hp := proper_of_parse hparse
    constructor
    · obtain ⟨es, m, stopped, ending, h⟩ := (Machine.sound_start p).exists_ends hp limit ⊤
      cases stopped with
      | false => exact ⟨es, m, ending, h⟩
      | true => cases h with | stopped _ htop _ => simp at htop
    · intro es m ending h
      have hbounded := Machine.runBounded_of_ends h
      have ho : Client.Objects [] := by simp [Client.Objects]
      obtain ⟨s, hrun, hm, hpending, hstopping, hlink⟩ :=
        Stream.run_of_ends ho [] (Client.stopTime_nil ▸ h)
      refine ⟨?_, ?_, hbounded, ⟨s, hrun, hm, hpending, hstopping, ?_⟩, ?_⟩
      · rintro error rfl
        exact (h.numeric hp (Machine.sound_start p)).report.1
      · simp [Service.runSource, hparse, hbounded]
      · simp [hlink, Link.carrying]
      · intro hf fuel hfuel
        exact Machine.run_of_ends h hf hfuel

/-- A program that prints `x` for ever. -/
def forever : Program := ⟨#[.print (.literal (.text "x")), .goto (.text "a")], [("a", 0)]⟩

theorem parse_forever : Program.parse ":a print \"x\" goto a" = .ok forever := by
  have hscan : upToEnd (Token.scan ":a print \"x\" goto a") =
      [⟨.label, "a", ⟨1, 1⟩⟩, ⟨.word, "print", ⟨1, 4⟩⟩, ⟨.string, "x", ⟨1, 10⟩⟩,
       ⟨.word, "goto", ⟨1, 14⟩⟩, ⟨.word, "a", ⟨1, 19⟩⟩, ⟨.line, "\n", ⟨1, 20⟩⟩] := by
    decide +kernel
  refine ofTokens_eq_ok_iff.2 ⟨[.label "a", .statement (.print (.literal (.text "x"))),
    .statement (.goto (.text "a"))], ?_, ?_, rfl⟩
  · have hx := Derives.expr (.string (t := ⟨.string, "x", ⟨1, 10⟩⟩) rfl) .nothing
    rw [hscan]
    refine DerivesProgram.label allLines_nil rfl ?_
    refine DerivesProgram.statement allLines_nil (.print (t := ⟨.word, "print", ⟨1, 4⟩⟩) rfl hx) ?_
    refine DerivesProgram.statement allLines_nil
      (.goto (t := ⟨.word, "goto", ⟨1, 14⟩⟩) rfl (u := ⟨.word, "a", ⟨1, 19⟩⟩) rfl) ?_
    exact .lines (by simp [AllLines])
  · rw [hscan]
    simp [nestedWithin_cons, nestedWithin_nil, openParens, maxNesting]

/-- The program that prints for ever is cut off after three statements. -/
theorem drivers_agree_forever :
    ∃ es m s, (Machine.start forever).Ends 3 ⊤ es m false .unfinished ∧
      Service.runSource 3 ":a print \"x\" goto a" = (["x", "x"], some (.limit 3)) ∧
      (Stream.start forever false [] (.fresh none)).run 3 = (.program .unfinished, s) ∧
      s.machine = m ∧ s.link.sent.reverse = [.output "x", .output "x"] := by
  have hes : (Machine.start forever).Steps
      [.printed "x", .jumped 1 (.text "a") 0, .printed "x"] ⟨forever, [], 1⟩ :=
    .next rfl (.next rfl (.next rfl (.refl _)))
  have hends : (Machine.start forever).Ends 3 ⊤ _ _ false .unfinished :=
    .unfinished hes rfl (ENat.natCast_lt_top 3) rfl
  obtain ⟨-, hsource, -, ⟨s, hrun, hm, -, -, hsent⟩, -⟩ :=
    ((drivers_agree _ 3).2 forever parse_forever).2 _ _ _ hends
  exact ⟨_, _, s, hends, hsource, hrun, hm, hsent⟩

end GotoBasic
