/-
  A session depends on its client only through the pause at which it is heard to
  stop the run.

  * `Client.heard`: the events of a client before the first message that is no
    object; the rest is not heard;
  * `Client.patience`: the number of pauses before the client is heard to stop a
    run;
  * `Stream.turn`: what a streamed run does next, which depends neither on the
    client nor on the link; `Stream.runFrom_of_ends`, `Stream.runFrom_of_sent`
    and `Stream.runFrom_of_broken` are what the run makes of it;
  * `Session.run_eq_of_patience`: clients of the same patience see the same
    sessions.
-/
import GotoBasic.Proofs.Session.Transcript

namespace GotoBasic

/-! ## What is heard of a client -/

/-- A message that is no object: nothing is heard of the client after it. -/
def ClientEvent.deafens : ClientEvent → Bool
  | message (.object _) | disconnect | wait _ => false
  | message _ => true

namespace Client

variable {event : ClientEvent} {events events' : List ClientEvent}

/-- The events that are heard. -/
def heard (events : List ClientEvent) : List ClientEvent := events.takeWhile (!·.deafens)

/-- The number of pauses before the client is heard to stop a run; infinity, if
    it is not. -/
def patience (events : List ClientEvent) : ℕ∞ := waits (heard events)

theorem heard_cons (event : ClientEvent) (events : List ClientEvent) :
    heard (event :: events) = if event.deafens then [] else event :: heard events := by
  cases h : event.deafens <;> simp [heard, h]

theorem heard_heard (events : List ClientEvent) : heard (heard events) = heard events := by
  simp [heard, List.takeWhile_takeWhile]

theorem objects_cons : Objects (event :: events) ↔ event.deafens = false ∧ Objects events := by
  constructor
  · intro h
    refine ⟨?_, h.tail⟩
    cases event with
    | message json =>
      obtain ⟨fields, rfl⟩ := h json List.mem_cons_self
      rfl
    | disconnect | wait => rfl
  · rintro ⟨hd, ho⟩ json hj
    rcases List.mem_cons.1 hj with rfl | hj
    · cases json with
      | object fields => exact ⟨fields, rfl⟩
      | _ => cases hd
    · exact ho json hj

theorem objects_heard (events : List ClientEvent) : Objects (heard events) := by
  induction events with
  | nil => simp [heard, Objects]
  | cons event events ih =>
    rw [heard_cons]
    split
    · simp [Objects]
    · rename_i hd
      exact objects_cons.2 ⟨by simpa using hd, ih⟩

theorem heard_of_objects (h : Objects events) : heard events = events := by
  induction events with
  | nil => rfl
  | cons event events ih =>
    obtain ⟨hd, ho⟩ := objects_cons.1 h
    rw [heard_cons, hd, ih ho]
    rfl

/-- A pause does not tell a client from what is heard of it. -/
theorem hear_heard (events : List ClientEvent) :
    hear (heard events) = (heard (hear events).1, (hear events).2) := by
  fun_induction hear events with
  | case1 => rfl
  | case2 events ih => simpa [heard_cons, ClientEvent.deafens, hear] using ih
  | case3 n events => simp [heard_cons, ClientEvent.deafens, hear]
  | case4 => simp [heard, ClientEvent.deafens, hear]
  | case5 fields events hs => simp [heard, ClientEvent.deafens, hear, hs]
  | case6 fields events hs ih => simpa [heard_cons, ClientEvent.deafens, hear, hs] using ih
  | case7 json events hno =>
    have hd : (ClientEvent.message json).deafens = true := by
      cases json with
      | object fields => exact (hno fields rfl).elim
      | _ => rfl
    simp [heard, hd, hear]

/-- At a pause the client stops the run, or has one pause less of patience. -/
theorem hear_cases_patience (events : List ClientEvent) :
    (hear events).2 = true ∧ patience events = 0 ∨
      (hear events).2 = false ∧ patience events = patience (hear events).1 + 1 := by
  simpa [patience, hear_heard] using hear_cases (objects_heard events)

/-- Clients of the same patience stop a run at this pause, or are of the same
    patience after it. -/
theorem hear_of_patience_eq (h : patience events = patience events') :
    (hear events).2 = (hear events').2 ∧
      ((hear events).2 = false → patience (hear events).1 = patience (hear events').1) := by
  rcases hear_cases_patience events with ⟨hs, hw⟩ | ⟨hs, hw⟩ <;>
    rcases hear_cases_patience events' with ⟨hs', hw'⟩ | ⟨hs', hw'⟩
  · simp [hs, hs']
  · exact absurd (hw'.symm.trans (h.symm.trans hw)) (by simp)
  · exact absurd (hw.symm.trans (h.trans hw')) (by simp)
  · have hnext : patience (hear events).1 + 1 = patience (hear events').1 + 1 := by
      rw [← hw, ← hw', h]
    exact ⟨by rw [hs, hs'], fun _ => ENat.add_left_injective_of_ne_top (by simp) hnext⟩

end Client

/-! ## One statement of a streamed run -/

namespace Stream

/-- What a streamed run does next: it ends, or it executes a statement, which
    may print a line. -/
inductive Turn where
  | ends (machine : Machine) (ending : Ending)
  | runs (machine : Machine) (line? : Option String)

/-- What a run does next that has executed `steps` statements; this depends
    neither on the client nor on the link. -/
def turn (limit : Int) (steps : Nat) (m : Machine) (stopping : Bool) : Turn :=
  if m.running && !stopping then
    if limit ≤ steps then .ends m .unfinished
    else
      match m.step with
      | .halted => .ends m .finished
      | .astray => .ends m (.astray m.counter)
      | .failed error next => .ends next (.failed error)
      | .ran effect next => .runs next effect.line?
  else .ends m .finished

/-- The stream after a statement that may have printed a line, which is still to
    be sent. -/
def print (s : Stream) (m : Machine) (line? : Option String) : Stream :=
  { s with machine := m, pending := s.pending ++ line?.toList }

section

variable {limit : Int} {steps : Nat} {s s' : Stream} {m : Machine} {ending : Ending}
  {line? : Option String} {fault : SendFault}

theorem runFrom_eq (limit : Int) (steps : Nat) (s : Stream) :
    s.runFrom limit steps =
      match turn limit steps s.machine s.stopping with
      | .ends m ending => { s with machine := m }.close (.program ending)
      | .runs m line? =>
        match (s.print m line?).flush with
        | (some fault, s) => s.close (.broken fault)
        | (none, s) => (s.pauseAfter (steps + 1)).runFrom limit (steps + 1) := by
  rw [runFrom, turn]
  split
  · split
    · rfl
    · cases s.machine.step <;> rfl
  · rfl

theorem runFrom_of_ends (h : turn limit steps s.machine s.stopping = .ends m ending) :
    s.runFrom limit steps = { s with machine := m }.close (.program ending) := by
  rw [runFrom_eq, h]

theorem runFrom_of_sent (h : turn limit steps s.machine s.stopping = .runs m line?)
    (hf : (s.print m line?).flush = (none, s')) :
    s.runFrom limit steps = (s'.pauseAfter (steps + 1)).runFrom limit (steps + 1) := by
  rw [runFrom_eq, h]
  simp only [hf]

theorem runFrom_of_broken (h : turn limit steps s.machine s.stopping = .runs m line?)
    (hf : (s.print m line?).flush = (some fault, s')) :
    s.runFrom limit steps = s'.close (.broken fault) := by
  rw [runFrom_eq, h]
  simp only [hf]

end

theorem turn_eq_runs {limit : Int} {steps : Nat} {m m' : Machine} {stopping : Bool}
    {line? : Option String} (h : turn limit steps m stopping = .runs m' line?) :
    stopping = false ∧ steps < limit := by
  unfold turn at h
  split at h
  · rename_i hr
    split at h
    · cases h
    · rename_i hl
      simp only [Bool.and_eq_true, Bool.not_eq_true'] at hr
      exact ⟨hr.2, by omega⟩
  · cases h

/-- Induction over the statements of a streamed run. -/
theorem runFrom_induction (limit : Int) {P : Nat → Stream → Prop}
    (next : ∀ (steps : Nat) (s : Stream), (steps < limit → ∀ s', P (steps + 1) s') → P steps s)
    (steps : Nat) (s : Stream) : P steps s := by
  induction hn : (limit - steps).toNat generalizing steps s with
  | zero => exact next steps s fun hl s' => by omega
  | succ n ih => exact next steps s fun hl s' => ih (steps + 1) s' (by omega)

/-! ## Streams with other clients -/

/-- The same stream with another client. -/
def withClient (s : Stream) (client : List ClientEvent) : Stream := { s with client }

variable {s : Stream} {client : List ClientEvent}

theorem flush_withClient (s : Stream) (client : List ClientEvent) :
    (s.withClient client).flush = (s.flush.1, s.flush.2.withClient client) := rfl

theorem close_withClient (s : Stream) (client : List ClientEvent) (ending : StreamEnding) :
    (s.withClient client).close ending =
      ((s.close ending).1, (s.close ending).2.withClient client) := by
  unfold close
  rw [flush_withClient]
  rcases s.flush with ⟨_ | fault, s'⟩ <;> rfl

theorem exists_pauseAfter_withClient (steps : Nat)
    (h : Client.patience s.client = Client.patience client) :
    ∃ client', (s.withClient client).pauseAfter steps = (s.pauseAfter steps).withClient client' ∧
      ((s.pauseAfter steps).stopping = false →
        Client.patience (s.pauseAfter steps).client = Client.patience client') := by
  unfold pauseAfter
  split
  · obtain ⟨hstop, hw⟩ := Client.hear_of_patience_eq h
    refine ⟨(Client.hear client).1, by simp [pause, withClient, hstop], fun hgo => hw ?_⟩
    simp only [pause, Bool.or_eq_false_iff] at hgo
    exact hgo.2
  · exact ⟨client, rfl, fun _ => h⟩

/-- A run depends on the client only through its patience. -/
theorem exists_runFrom_withClient (limit : Int) (steps : Nat)
    (h : s.stopping = false → Client.patience s.client = Client.patience client) :
    ∃ client', (s.withClient client).runFrom limit steps =
      ((s.runFrom limit steps).1, (s.runFrom limit steps).2.withClient client') := by
  induction steps, s using runFrom_induction limit generalizing client with
  | next steps s ih =>
    cases ht : turn limit steps s.machine s.stopping with
    | ends m ending =>
      rw [runFrom_of_ends ht, runFrom_of_ends (s := s.withClient client) ht]
      exact ⟨client, close_withClient { s with machine := m } client _⟩
    | runs m line? =>
      obtain ⟨hgo, hl⟩ := turn_eq_runs ht
      have hflush := flush_withClient (s.print m line?) client
      have hclient : (s.print m line?).flush.2.client = s.client := rfl
      rcases hf : (s.print m line?).flush with ⟨_ | fault, s'⟩ <;> rw [hf] at hflush hclient
      · obtain ⟨client', hpause, hw⟩ :=
          exists_pauseAfter_withClient (steps + 1) (hclient ▸ h hgo)
        rw [runFrom_of_sent ht hf, runFrom_of_sent (s := s.withClient client) ht hflush, hpause]
        exact ih hl _ hw
      · rw [runFrom_of_broken ht hf, runFrom_of_broken (s := s.withClient client) ht hflush]
        exact ⟨client, close_withClient s' client _⟩

end Stream

/-! ## Sessions with other clients -/

namespace Session

variable {client client' : List ClientEvent}

theorem conclude_withClient (limit : Int) (ending : StreamEnding) (s : Stream)
    (client : List ClientEvent) :
    conclude limit (ending, s.withClient client) = conclude limit (ending, s) := by
  rcases ending with ⟨_ | _ | _ | _⟩ | _ <;> rfl

theorem execute_eq_of_patience (h : Client.patience client = Client.patience client')
    (limit : Int) (link : Link) (code : String) :
    execute limit client link code = execute limit client' link code := by
  unfold execute
  cases Program.parse code with
  | error error => rfl
  | ok p =>
    rcases link.send .started with ⟨_ | fault, link⟩
    · obtain ⟨client'', hrun⟩ := Stream.exists_runFrom_withClient
        (s := Stream.start p false client link) limit 0 fun _ => h
      have hrun' : (Stream.start p false client' link).run limit = _ := hrun
      simp only [hrun', conclude_withClient]
      rfl
    · rfl

/-- **Clients of the same patience see the same sessions.** -/
theorem run_eq_of_patience (h : Client.patience client = Client.patience client')
    (first : Option Json) (limit : Int) (breakdown : Option Breakdown) :
    run first client limit breakdown = run first client' limit breakdown := by
  unfold run
  simp only [execute_eq_of_patience h]

end Session

end GotoBasic
