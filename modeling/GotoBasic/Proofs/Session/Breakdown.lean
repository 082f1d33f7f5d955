/-
  Sessions on a link that breaks down.

  * `Link.breaking b messages`: the link on which `messages` were to be sent and
    that broke down as `b` says;
  * `Stream.exists_runFrom_breaking`: a run on such a link sends what it sends
    otherwise, up to the breakdown;
  * `Session.run_breakdown`: so a session on such a link is the same session,
    cut short;
  * `Session.escaped_eq_none_iff`: when a fault of the link escapes a session.
-/
import GotoBasic.Proofs.Session.Thinning

namespace GotoBasic

/-! ## Links that break down -/

namespace Breakdown

variable {b : Breakdown} {messages : List Message}

/-- The fault by which a link fails that is to carry some messages. -/
def fault? (b : Breakdown) (messages : List Message) : Option SendFault :=
  if b.after < messages.length then some b.fault else none

theorem fault?_of_lt (h : b.after < messages.length) : b.fault? messages = some b.fault :=
  if_pos h

theorem fault?_of_le (h : messages.length ≤ b.after) : b.fault? messages = none :=
  if_neg (Nat.not_lt.2 h)

theorem fault?_append (h : b.after < messages.length) (later : List Message) :
    b.fault? (messages ++ later) = some b.fault :=
  fault?_of_lt (h.trans_le (by simp))

end Breakdown

namespace Link

variable {b : Breakdown} {sent : List Message}

/-- A link that was to carry some messages until it broke down: the first that
    got lost was the last one tried. -/
def breaking (b : Breakdown) (messages : List Message) : Link :=
  ⟨(messages.take b.after).reverse, min messages.length (b.after + 1), some b⟩

theorem fresh_some (b : Breakdown) : fresh (some b) = breaking b [] := by
  simp [fresh, breaking]

theorem breaking_append (h : b.after < sent.length) (later : List Message) :
    breaking b (sent ++ later) = breaking b sent := by
  have hattempts : min (sent ++ later).length (b.after + 1) = min sent.length (b.after + 1) := by
    rw [List.length_append]
    omega
  rw [breaking, breaking, hattempts, List.take_append_of_le_length h.le]

theorem nextFault?_breaking (b : Breakdown) (sent : List Message) :
    (breaking b sent).nextFault? = if b.after ≤ sent.length then some b.fault else none := by
  have hiff : b.after ≤ min sent.length (b.after + 1) ↔ b.after ≤ sent.length := by omega
  simp only [nextFault?, breaking, hiff]

theorem send_breaking (h : sent.length ≤ b.after) (message : Message) :
    (breaking b sent).send message =
      (b.fault? (sent ++ [message]), breaking b (sent ++ [message])) := by
  have hlength : (sent ++ [message]).length = sent.length + 1 := by simp
  have hattempts : min sent.length (b.after + 1) + 1 = min (sent.length + 1) (b.after + 1) := by
    omega
  rcases h.lt_or_eq with hlt | heq
  · -- one more message gets through
    rw [send, nextFault?_breaking, if_neg (by omega), Breakdown.fault?_of_le (by omega)]
    simp only [breaking, hlength, hattempts]
    rw [List.take_of_length_le h, List.take_of_length_le (by omega), List.reverse_append]
    rfl
  · rw [send, nextFault?_breaking, if_pos heq.ge, Breakdown.fault?_of_lt (by omega)]
    simp only [breaking, hlength, hattempts]
    rw [List.take_append_of_le_length heq.ge]

/-- After a breakdown nothing gets through. -/
theorem send_broken (h : b.after < sent.length) (message : Message) :
    (breaking b sent).send message =
      (some b.fault, { breaking b sent with attempts := b.after + 2 }) := by
  have hattempts : min sent.length (b.after + 1) + 1 = b.after + 2 := by omega
  rw [send, nextFault?_breaking, if_pos h.le]
  simp only [breaking, hattempts]

theorem sendAll_breaking (h : sent.length ≤ b.after) (messages : List Message) :
    (breaking b sent).sendAll messages =
      (b.fault? (sent ++ messages), breaking b (sent ++ messages)) := by
  induction messages generalizing sent with
  | nil => simp [sendAll, Breakdown.fault?_of_le h]
  | cons message later ih =>
    rw [sendAll, send_breaking h, List.append_cons sent message later]
    rcases Nat.lt_or_ge b.after (sent ++ [message]).length with hlt | hle
    · rw [Breakdown.fault?_of_lt hlt, Breakdown.fault?_append hlt, breaking_append hlt]
    · rw [Breakdown.fault?_of_le hle]
      exact ih hle

theorem carrying_injective : Function.Injective carrying := by
  intro sent sent' h
  simpa [carrying] using congrArg Link.sent h

end Link

/-! ## Streams on links that break down -/

namespace Stream

variable {b : Breakdown} {s : Stream} {sent later : List Message} {limit : Int} {steps : Nat}

/-- The same stream on another link. -/
def withLink (s : Stream) (link : Link) : Stream := { s with link }

theorem close_eq (s : Stream) (ending : StreamEnding) :
    s.close ending = (s.flush.1.elim ending .broken, s.flush.2) := by
  rw [close]
  rcases s.flush with ⟨_ | fault, s'⟩ <;> rfl

/-- Flushing a stream sends its lines, or those that get through. -/
theorem exists_flush (h : s.link = .carrying sent) :
    ∃ s', s.flush = (none, s') ∧ s'.pending = [] ∧ s'.stopping = s.stopping ∧
      s'.link = .carrying (sent ++ s.pending.map .output) ∧
      ∀ b : Breakdown, sent.length ≤ b.after →
        (s.withLink (.breaking b sent)).flush =
          (b.fault? (sent ++ s.pending.map .output),
            s'.withLink (.breaking b (sent ++ s.pending.map .output))) := by
  refine ⟨_, flush_of_carrying h, rfl, rfl, rfl, fun b hle => ?_⟩
  simp [flush, withLink, Link.sendAll_breaking hle]

theorem pauseAfter_withLink (s : Stream) (link : Link) :
    (s.withLink link).pauseAfter steps = (s.pauseAfter steps).withLink link := by
  unfold pauseAfter
  split <;> rfl

/-- A run only adds to the messages that are sent. -/
theorem exists_runFrom_link (h : s.link = .carrying sent) (limit : Int) (steps : Nat) :
    ∃ later, (s.runFrom limit steps).2.link = .carrying (sent ++ later) := by
  induction steps, s using runFrom_induction limit generalizing sent with
  | next steps s ih =>
    cases ht : turn limit steps s.machine s.stopping with
    | ends m ending =>
      obtain ⟨s', hflush, -, -, hlink, -⟩ := exists_flush (s := { s with machine := m }) h
      rw [runFrom_of_ends ht, close_eq, hflush]
      exact ⟨_, hlink⟩
    | runs m line? =>
      obtain ⟨s', hflush, -, -, hlink, -⟩ := exists_flush (s := s.print m line?) h
      obtain ⟨later, hlater⟩ := ih (turn_eq_runs ht).2 (s'.pauseAfter (steps + 1))
        (pauseAfter_link.trans hlink)
      rw [runFrom_of_sent ht hflush, hlater, List.append_assoc]
      exact ⟨_, rfl⟩

/-- On a link that breaks down, a run sends what it sends otherwise, up to the
    breakdown, which then is how it ends. -/
theorem exists_runFrom_breaking (h : s.link = .carrying sent) (hle : sent.length ≤ b.after)
    (hlater : (s.runFrom limit steps).2.link = .carrying (sent ++ later)) :
    ∃ s', (s.withLink (.breaking b sent)).runFrom limit steps =
        ((b.fault? (sent ++ later)).elim (s.runFrom limit steps).1 .broken, s') ∧
      s'.link = .breaking b (sent ++ later) ∧
      (b.fault? (sent ++ later) = none → s'.stopping = (s.runFrom limit steps).2.stopping) := by
  induction steps, s using runFrom_induction limit generalizing sent later with
  | next steps s ih =>
    cases ht : turn limit steps s.machine s.stopping with
    | ends m ending =>
      obtain ⟨s', hflush, -, hstop, hlink, hbreak⟩ := exists_flush (s := { s with machine := m }) h
      rw [runFrom_of_ends ht, close_eq, hflush] at hlater ⊢
      rw [← Link.carrying_injective (hlink.symm.trans hlater),
        runFrom_of_ends (s := s.withLink (.breaking b sent)) ht]
      have hclose := close_eq ({ s with machine := m }.withLink (.breaking b sent))
        (.program ending)
      rw [hbreak b hle] at hclose
      exact ⟨_, hclose, rfl, fun _ => rfl⟩
    | runs m line? =>
      obtain ⟨s', hflush, hpending, -, hlink, hbreak⟩ := exists_flush (s := s.print m line?) h
      have hlink' : (s'.pauseAfter (steps + 1)).link = _ := pauseAfter_link.trans hlink
      obtain ⟨later', hlater'⟩ := exists_runFrom_link hlink' limit (steps + 1)
      rw [runFrom_of_sent ht hflush] at hlater ⊢
      rw [Link.carrying_injective (hlater.symm.trans hlater')]
      rcases Nat.lt_or_ge b.after (sent ++ (s.print m line?).pending.map Message.output).length
        with hlt | hge
      · -- the line of this statement gets lost
        have hempty : ∀ link, (s'.withLink link).pending = [] := fun _ => hpending
        have hf := hbreak b hle
        rw [Breakdown.fault?_of_lt hlt] at hf
        rw [runFrom_of_broken (s := s.withLink (.breaking b sent)) ht hf,
          Breakdown.fault?_append hlt, Link.breaking_append hlt]
        exact ⟨_, close_of_pending (hempty _) _, rfl, by simp⟩
      · have hf := hbreak b hle
        rw [Breakdown.fault?_of_le hge] at hf
        rw [runFrom_of_sent (s := s.withLink (.breaking b sent)) ht hf, pauseAfter_withLink]
        exact ih (turn_eq_runs ht).2 _ hlink' hge hlater'

end Stream

/-! ## Sessions on links that break down -/

namespace Session

variable {limit : Int} {client : List ClientEvent} {b : Breakdown} {s s' : Stream}
  {sent messages : List Message} {ending : StreamEnding}

/-- The end of a run is reported by one message, if there is no trouble. -/
theorem exists_conclude_eq_send (h : (conclude limit (ending, s)).1 = none) :
    ∃ message, ∀ s' : Stream, s'.stopping = s.stopping →
      conclude limit (ending, s') = ofSend (s'.link.send message) := by
  rcases ending with ⟨_ | error | counter | _⟩ | fault
  · exact ⟨.finished s.stopping, fun s' hs => by rw [conclude, hs]⟩
  · exact ⟨_, fun s' _ => rfl⟩
  · cases h
  · exact ⟨_, fun s' _ => rfl⟩
  · cases h

theorem ofSend_breaking (h : sent.length ≤ b.after) (message : Message) :
    ofSend ((Link.breaking b sent).send message) =
      ((b.fault? (sent ++ [message])).map .fault, .breaking b (sent ++ [message])) := by
  rw [Link.send_breaking h]
  rfl

theorem conclude_breaking (hlink : s.link = .carrying sent) (hlink' : s'.link = .breaking b sent)
    (hs : b.fault? sent = none → s'.stopping = s.stopping)
    (h : conclude limit (ending, s) = (none, .carrying messages)) :
    conclude limit ((b.fault? sent).elim ending .broken, s') =
      ((b.fault? messages).map .fault, .breaking b messages) := by
  obtain ⟨message, hsend⟩ := exists_conclude_eq_send (congrArg Prod.fst h)
  rw [hsend s rfl, hlink, ofSend_carrying] at h
  rw [← Link.carrying_injective (congrArg Prod.snd h)]
  rcases Nat.lt_or_ge b.after sent.length with hlt | hge
  · -- the run itself broke down
    rw [Breakdown.fault?_of_lt hlt, Breakdown.fault?_append hlt, Link.breaking_append hlt,
      ← hlink']
    rfl
  · have hnone := Breakdown.fault?_of_le hge
    rw [hnone]
    exact (hsend s' (hs hnone)).trans (hlink' ▸ ofSend_breaking hge message)

/-- On a link that breaks down, a text is executed as otherwise, up to the
    breakdown. -/
theorem exists_execute_breaking (limit : Int) (client : List ClientEvent) (b : Breakdown)
    (code : String) :
    ∃ messages, execute limit client (.carrying []) code = (none, .carrying messages) ∧
      execute limit client (.breaking b []) code =
        ((b.fault? messages).map .fault, .breaking b messages) := by
  cases hparse : Program.parse code with
  | error error =>
    refine ⟨[.aborted (Failure.parse error).report], ?_, ?_⟩
    · simp [execute, hparse, ofSend_carrying]
    · simp [execute, hparse, ofSend_breaking]
  | ok p =>
    obtain ⟨es, m, stopped, ending, hends⟩ := (Machine.sound_start p).exists_ends
      (proper_of_parse hparse) limit (Client.stopTime (Client.heard client))
    obtain ⟨rest, hwhole⟩ : ∃ rest,
        execute limit client (.carrying []) code = (none, .carrying ([.started] ++ rest)) :=
      ⟨_, execute_of_ends hparse hends⟩
    have hsend : (Link.breaking b []).send .started =
        (b.fault? [.started], .breaking b [.started]) := Link.send_breaking (Nat.zero_le _) _
    refine ⟨_, hwhole, ?_⟩
    simp only [execute, hparse, Link.send_carrying, List.nil_append] at hwhole
    simp only [execute, hparse, hsend]
    rcases Nat.lt_or_ge b.after [Message.started].length with hlt | hge
    · -- the program is not even started
      rw [Breakdown.fault?_of_lt hlt, Breakdown.fault?_append hlt, Link.breaking_append hlt]
      rfl
    · rw [Breakdown.fault?_of_le hge]
      obtain ⟨later, hlater⟩ := Stream.exists_runFrom_link
        (s := Stream.start p false client (.carrying [.started])) rfl limit 0
      obtain ⟨s', hrun, hlink, hs⟩ := Stream.exists_runFrom_breaking rfl hge hlater
      have hrun' : (Stream.start p false client (.breaking b [.started])).run limit = _ := hrun
      simp only [hrun']
      exact conclude_breaking hlater hlink hs hwhole

/-- The client begins with a message that is no object, or whose code is no
    text. -/
def Mistaken (first : Option Json) : Prop :=
  ∃ json report, first = some json ∧ source json = .error report

/-- What is left of a fault by which the report of trouble gets lost. -/
def uncaught : SendFault → Option SendFault
  | .closed => none
  | fault => some fault

theorem complain_of_fault {link link' : Link} {report : String} {fault : SendFault}
    (h : link.send (.trouble report) = (some fault, link')) :
    complain link report = close link' (uncaught fault) := by
  rw [complain, h]
  cases fault <;> rfl

theorem close_breaking (h : messages.length ≤ b.after) :
    close (.breaking b messages) none = close (.carrying messages) none := by
  have hattempts : min messages.length (b.after + 1) = messages.length := by omega
  simp only [close, Link.breaking, Link.carrying, List.take_of_length_le h, hattempts]

/-- A session on a link that breaks down, beside the one on a link that does
    not. -/
theorem exists_run_breaking (first : Option Json) (client : List ClientEvent) (limit : Int)
    (b : Breakdown) :
    ∃ messages, run first client limit none = close (.carrying messages) none ∧
      (Mistaken first → messages.length = 1) ∧
      (messages.length ≤ b.after →
        run first client limit (some b) = close (.carrying messages) none) ∧
      (b.after < messages.length →
        Mistaken first ∧
          run first client limit (some b) = close (.breaking b messages) (uncaught b.fault) ∨
        ¬ Mistaken first ∧
          run first client limit (some b) =
            settle (some (.fault b.fault), .breaking b messages)) := by
  cases first with
  | none =>
    refine ⟨[], rfl, ?_, fun hle => ?_, fun hlt => by simp at hlt⟩
    · rintro ⟨_, _, hjson, _⟩
      cases hjson
    · simp only [run, Link.fresh_some]
      exact close_breaking hle
  | some json =>
    cases hcode : source json with
    | error report =>
      have hsend : (Link.breaking b []).send (.trouble report) =
          (b.fault? [.trouble report], .breaking b [.trouble report]) :=
        Link.send_breaking (Nat.zero_le _) _
      refine ⟨[.trouble report], ?_, fun _ => rfl, fun hle => ?_, fun hlt => .inl ⟨?_, ?_⟩⟩
      · simp [run, hcode, complain, Link.fresh_none, Link.send_carrying]
      · rw [Breakdown.fault?_of_le hle] at hsend
        simp only [run, hcode, Link.fresh_some, complain, hsend]
        exact close_breaking hle
      · exact ⟨json, report, rfl, hcode⟩
      · rw [Breakdown.fault?_of_lt hlt] at hsend
        simp only [run, hcode, Link.fresh_some]
        exact complain_of_fault hsend
    | ok code =>
      have hright : ¬ Mistaken (some json) := by
        rintro ⟨_, _, hjson, hreport⟩
        cases hjson
        rw [hcode] at hreport
        cases hreport
      obtain ⟨messages, hwhole, hbroken⟩ := exists_execute_breaking limit client b code
      refine ⟨messages, ?_, fun h => absurd h hright, fun hle => ?_, fun hlt => .inr ⟨hright, ?_⟩⟩
      · simp [run, hcode, Link.fresh_none, hwhole, settle]
      · rw [Breakdown.fault?_of_le hle] at hbroken
        simp only [run, hcode, Link.fresh_some, hbroken]
        exact close_breaking hle
      · rw [Breakdown.fault?_of_lt hlt] at hbroken
        simp only [run, hcode, Link.fresh_some, hbroken]
        rfl

/-- A fault of the link is passed over if the client went away, and is reported
    otherwise. -/
theorem settle_fault (fault : SendFault) (link : Link) :
    fault = .disconnected ∧ settle (some (.fault fault), link) = close link none ∨
      fault ≠ .disconnected ∧
        ∃ report, settle (some (.fault fault), link) = complain link report := by
  cases fault with
  | disconnected => exact .inl ⟨rfl, rfl⟩
  | closed | refused => exact .inr ⟨by simp, _, rfl⟩

/-- The report of a breakdown gets lost. -/
theorem complain_breaking (h : b.after < messages.length) (report : String) :
    complain (.breaking b messages) report =
      close { Link.breaking b messages with attempts := b.after + 2 } (uncaught b.fault) :=
  complain_of_fault (Link.send_broken h _)

theorem sent_close_carrying (messages : List Message) (escaped : Option SendFault) :
    (close (.carrying messages) escaped).sent = messages :=
  List.reverse_reverse messages

theorem sent_close_breaking (b : Breakdown) (messages : List Message)
    (escaped : Option SendFault) :
    (close (.breaking b messages) escaped).sent = messages.take b.after :=
  List.reverse_reverse _

/-- **A link that breaks down only cuts a session short.**  What gets through
    are the first messages of the session on a link that does not break down.
    After the first message that is lost, at most the report of this is
    tried. -/
theorem run_breakdown (first : Option Json) (client : List ClientEvent) (limit : Int)
    (b : Breakdown) :
    (run first client limit (some b)).sent = (run first client limit none).sent.take b.after ∧
    ((run first client limit none).sent.length ≤ b.after →
      run first client limit (some b) = run first client limit none) ∧
    (b.after < (run first client limit none).sent.length →
      (run first client limit (some b)).attempts ≤ b.after + 2 ∧
      ∃ link : Link, link.attempts = b.after + 1 ∧
        ((∃ escaped, run first client limit (some b) = close link escaped) ∨
          ∃ report, run first client limit (some b) = complain link report)) := by
  obtain ⟨messages, hwhole, -, hkept, hlost⟩ := exists_run_breaking first client limit b
  rw [hwhole, sent_close_carrying]
  rcases Nat.lt_or_ge b.after messages.length with hlt | hge
  · have hattempts : (Link.breaking b messages).attempts = b.after + 1 := by
      simp only [Link.breaking]
      omega
    have hends :
        (∃ escaped, run first client limit (some b) = close (.breaking b messages) escaped) ∨
          ∃ report, run first client limit (some b) = complain (.breaking b messages) report := by
      rcases hlost hlt with ⟨-, hrun⟩ | ⟨-, hrun⟩
      · exact .inl ⟨_, hrun⟩
      · rcases settle_fault b.fault (.breaking b messages) with ⟨-, hs⟩ | ⟨-, report, hs⟩
        · exact .inl ⟨_, hrun.trans hs⟩
        · exact .inr ⟨report, hrun.trans hs⟩
    refine ⟨?_, fun hle => absurd hle (by omega), fun _ => ⟨?_, _, hattempts, hends⟩⟩
    · rcases hends with ⟨escaped, hrun⟩ | ⟨report, hrun⟩
      · rw [hrun, sent_close_breaking]
      · rw [hrun, complain_breaking hlt]
        exact List.reverse_reverse _
    · rcases hends with ⟨escaped, hrun⟩ | ⟨report, hrun⟩
      · rw [hrun]
        exact hattempts.le.trans (by omega)
      · rw [hrun, complain_breaking hlt]
        exact le_rfl
  · rw [hkept hge, sent_close_carrying, List.take_of_length_le hge]
    exact ⟨rfl, fun _ => rfl, fun hlt => absurd hlt (by omega)⟩

/-- **No fault escapes a session whose link is closed.  One whose client goes
    away lets the fault escape if and only if its very first message, the
    report of a mistaken client, gets lost.** -/
theorem escaped_eq_none_iff (first : Option Json) (client : List ClientEvent) (limit : Int)
    (n : Nat) :
    (run first client limit (some ⟨n, .closed⟩)).escaped = none ∧
    ((run first client limit (some ⟨n, .disconnected⟩)).escaped = none ↔
      ¬ (Mistaken first ∧ n = 0)) := by
  constructor
  · obtain ⟨messages, -, -, hkept, hlost⟩ := exists_run_breaking first client limit ⟨n, .closed⟩
    rcases Nat.lt_or_ge n messages.length with hlt | hge
    · rcases hlost hlt with ⟨-, hrun⟩ | ⟨-, hrun⟩
      · rw [hrun]
        rfl
      · -- the breakdown is reported, and this report may get lost
        have hreport : settle (some (.fault .closed), .breaking ⟨n, .closed⟩ messages) =
            complain (.breaking ⟨n, .closed⟩ messages) _ := rfl
        rw [hrun, hreport, complain_breaking hlt]
        rfl
    · rw [hkept hge]
      rfl
  · obtain ⟨messages, -, hone, hkept, hlost⟩ :=
      exists_run_breaking first client limit ⟨n, .disconnected⟩
    rcases Nat.lt_or_ge n messages.length with hlt | hge
    · rcases hlost hlt with ⟨hm, hrun⟩ | ⟨hm, hrun⟩
      · have hzero : n = 0 := by
          rw [hone hm] at hlt
          omega
        rw [hrun]
        simp [hm, hzero, close, uncaught]
      · rw [hrun]
        simp [hm, settle, close]
    · rw [hkept hge]
      refine ⟨?_, fun _ => rfl⟩
      rintro - ⟨hm, rfl⟩
      rw [hone hm] at hge
      omega

/-- A client that begins with an empty list and goes away before it is told
    that this is a mistake. -/
theorem run_escapes :
    (run (some (.array [])) [] 100000 (some ⟨0, .disconnected⟩)).escaped = some .disconnected :=
  rfl

end Session

end GotoBasic
