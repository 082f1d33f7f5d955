/-
  Messages that do not ask to stop.

  * `Client.Thinned`: a client that leaves out some of its messages that do not
    ask to stop;
  * `Client.Attentive`: no message that is no object comes before the client
    stops the run;
  * `Session.run_of_ends`: the messages of a session with any client;
  * `Session.run_thinned_iff`: it makes no difference which of its messages an
    attentive client leaves out, and for no other client this holds.
-/
import GotoBasic.Proofs.Session.Hearing

namespace GotoBasic

namespace Client

variable {event : ClientEvent} {events events' : List ClientEvent}

/-! ## Messages that do not ask to stop -/

/-- The second list is the first one without some messages that do not ask to
    stop. -/
inductive Thinned : List ClientEvent → List ClientEvent → Prop where
  | nil : Thinned [] []
  | keep {events events' : List ClientEvent} (event : ClientEvent) :
      Thinned events events' → Thinned (event :: events) (event :: events')
  | drop {events events' : List ClientEvent} {json : Json} :
      (ClientEvent.message json).stops = false → Thinned events events' →
      Thinned (.message json :: events) events'

/-- If the client stops the run, all its messages before that are objects. -/
def Attentive (events : List ClientEvent) : Prop :=
  events.any ClientEvent.stops = true → Objects (events.takeWhile (!·.stops))

theorem waits_nil : waits [] = ⊤ := rfl

theorem waits_eq_top_iff : waits events = ⊤ ↔ events.any ClientEvent.stops = false := by
  unfold waits
  split
  · rename_i h
    exact iff_of_false (ENat.natCast_ne_top _) (by simp [h])
  · rename_i h
    exact iff_of_true rfl (by simpa using h)

theorem stops_of_deafens (h : event.deafens = true) : event.stops = false := by
  cases event with
  | message json =>
    cases json with
    | object => cases h
    | _ => rfl
  | disconnect | wait => cases h

theorem attentive_cons_of_stops (h : event.stops = true) : Attentive (event :: events) := by
  intro _
  simp [h, Objects]

theorem attentive_cons (h : event.stops = false) :
    Attentive (event :: events) ↔
      (event.deafens = true → waits events = ⊤) ∧ Attentive events := by
  cases hd : event.deafens <;> cases ha : events.any ClientEvent.stops <;>
    simp [Attentive, waits_eq_top_iff, objects_cons, h, hd, ha]

theorem attentive_of_waits_eq_top (h : waits events = ⊤) : Attentive events := by
  intro hany
  rw [waits_eq_top_iff.1 h] at hany
  cases hany

theorem pauses_of_deafens (h : event.deafens = true) : event.pauses = 0 := by
  cases event with
  | message | disconnect => rfl
  | wait => cases h

/-- Of an attentive client all is heard that matters, and only of such a one. -/
theorem attentive_iff : Attentive events ↔ patience events = waits events := by
  induction events with
  | nil => simp [Attentive, patience, heard]
  | cons event events ih =>
    rw [patience, heard_cons, waits_cons event events]
    cases hd : event.deafens with
    | true =>
      rw [attentive_cons (stops_of_deafens hd), stops_of_deafens hd, pauses_of_deafens hd]
      constructor
      · rintro ⟨htop, -⟩
        simp [htop hd, waits_nil]
      · intro h
        have htop : waits events = ⊤ := by simpa [waits_nil] using h.symm
        exact ⟨fun _ => htop, attentive_of_waits_eq_top htop⟩
    | false =>
      cases hs : event.stops with
      | true => simp [attentive_cons_of_stops hs, waits_cons, hs]
      | false =>
        have hinj : (event.pauses : ℕ∞) + waits (heard events) = event.pauses + waits events ↔
            patience events = waits events :=
          (ENat.add_right_injective_of_ne_top (ENat.natCast_ne_top _)).eq_iff
        simp [attentive_cons hs, hd, hs, waits_cons, hinj, ih]

theorem Thinned.waits_eq (h : Thinned events events') : waits events = waits events' := by
  induction h with
  | nil => rfl
  | keep event _ ih => rw [waits_cons, waits_cons, ih]
  | drop hs _ ih => simp [waits_cons, hs, ClientEvent.pauses, ih]

theorem Thinned.attentive (h : Thinned events events') (ha : Attentive events) :
    Attentive events' := by
  induction h with
  | nil => exact ha
  | keep event hthin ih =>
    cases hs : event.stops with
    | true => exact attentive_cons_of_stops hs
    | false =>
      obtain ⟨hd, ha⟩ := (attentive_cons hs).1 ha
      exact (attentive_cons hs).2 ⟨fun h => hthin.waits_eq ▸ hd h, ih ha⟩
  | drop hs _ ih => exact ih ((attentive_cons hs).1 ha).2

/-- All messages that are no objects may be left out. -/
theorem thinned_objects (events : List ClientEvent) :
    Thinned events (events.filter (!·.deafens)) ∧ Objects (events.filter (!·.deafens)) := by
  induction events with
  | nil => exact ⟨.nil, by simp [Objects]⟩
  | cons event events ih =>
    cases hd : event.deafens with
    | false =>
      rw [List.filter_cons_of_pos (by simp [hd])]
      exact ⟨.keep event ih.1, objects_cons.2 ⟨hd, ih.2⟩⟩
    | true =>
      rw [List.filter_cons_of_neg (by simp [hd])]
      cases event with
      | message json => exact ⟨.drop (stops_of_deafens hd) ih.1, ih.2⟩
      | disconnect | wait => cases hd

end Client

/-! ## Sessions on a link that does not break down -/

namespace Session

variable {first : Json} {code : String} {p : Program} {client client' : List ClientEvent}
  {limit : Int} {es : List Effect} {m : Machine} {stopped : Bool} {ending : Ending}

theorem execute_of_ends (hparse : Program.parse code = .ok p)
    (h : (Machine.start p).Ends limit (Client.stopTime (Client.heard client)) es m stopped ending) :
    execute limit client (.carrying []) code =
      (none, .carrying (.started :: (es.filterMap Effect.line?).map .output ++
        [ending.notice limit stopped])) := by
  have ha : ∀ counter, ending ≠ .astray counter := by
    rintro counter rfl
    cases h
  have hheard : Client.patience client = Client.patience (Client.heard client) := by
    rw [Client.patience, Client.patience, Client.heard_heard]
  obtain ⟨s, hrun, -, -, rfl, hlink⟩ :=
    Stream.run_of_ends (Client.objects_heard client) [.started] h
  rw [execute_eq_of_patience hheard]
  simp only [execute, hparse, Link.send_carrying, List.nil_append]
  rw [hrun, conclude_carrying hlink ha]
  rfl

theorem run_of_ends (hcode : source first = .ok code) (hparse : Program.parse code = .ok p)
    (h : (Machine.start p).Ends limit (Client.stopTime (Client.heard client)) es m stopped ending) :
    (run (some first) client limit none).sent =
      .started :: (es.filterMap Effect.line?).map .output ++ [ending.notice limit stopped] := by
  simp only [run, hcode, Link.fresh_none]
  rw [execute_of_ends hparse h]
  simp [settle, close, Link.carrying]

end Session

/-! ## Sessions that tell clients apart -/

theorem Client.stopTime_lt {client client' : List ClientEvent}
    (h : patience client < patience client') :
    stopTime (heard client) < stopTime (heard client') := by
  have hnext : patience client + 1 < patience client' + 1 :=
    (ENat.add_lt_add_iff_right ENat.one_ne_top).2 h
  exact ENat.mul_right_strictMono (by simp [Stream.pauseEvery]) (ENat.natCast_ne_top _) hnext

namespace Session

variable {client client' : List ClientEvent}

/-- A first message with the program that prints for ever. -/
def askForever : Json := .object [("code", .string ":a print \"x\" goto a")]

/-- When the program that prints for ever reaches its limit, it is stopped by
    one client, and cut off while it waits for the other. -/
theorem exists_run_ne (h : Client.patience client < Client.patience client') :
    ∃ limit, (run (some askForever) client limit none).sent ≠
      (run (some askForever) client' limit none).sent := by
  obtain ⟨w, hw⟩ := ENat.ne_top_iff_exists.1 h.ne_top
  have hes := steps_forever (50 * (w + 1))
  have hlen : (List.replicate (50 * (w + 1))
      [Effect.printed "x", .jumped 1 (.text "a") 0]).flatten.length = 100 * (w + 1) := by
    simp
    omega
  have hstop : ((100 * (w + 1) : Nat) : ℕ∞) = Client.stopTime (Client.heard client) := by
    rw [Client.stopTime, ← Client.patience, ← hw]
    simp [Stream.pauseEvery]
  have hlater : ((100 * (w + 1) : Nat) : ℕ∞) < Client.stopTime (Client.heard client') :=
    hstop ▸ Client.stopTime_lt h
  have hstopped : (Machine.start forever).Ends (100 * (w + 1) : Nat) _ _ _ true .finished :=
    .stopped hes (hlen ▸ hstop) (by omega)
  have hcut : (Machine.start forever).Ends (100 * (w + 1) : Nat) _ _ _ false .unfinished :=
    .unfinished hes rfl (hlen ▸ hlater) (by omega)
  refine ⟨(100 * (w + 1) : Nat), ?_⟩
  rw [run_of_ends rfl parse_forever hstopped, run_of_ends rfl parse_forever hcut]
  simp [Ending.notice, Ending.failure?]

/-- Clients see the same sessions if and only if they have the same patience. -/
theorem run_eq_iff_patience :
    (∀ first limit breakdown,
      run first client limit breakdown = run first client' limit breakdown) ↔
    Client.patience client = Client.patience client' := by
  constructor
  · intro h
    by_contra hne
    rcases lt_or_gt_of_ne hne with hlt | hlt
    · obtain ⟨limit, hsent⟩ := exists_run_ne hlt
      exact hsent (by rw [h])
    · obtain ⟨limit, hsent⟩ := exists_run_ne hlt
      exact hsent (by rw [h])
  · exact run_eq_of_patience

/-- **Messages that do not ask to stop change no session of a client if and
    only if no message that is no object comes before the client stops the
    run.** -/
theorem run_thinned_iff (client : List ClientEvent) :
    (∀ client', Client.Thinned client client' → ∀ first limit breakdown,
      run first client limit breakdown = run first client' limit breakdown) ↔
    Client.Attentive client := by
  rw [Client.attentive_iff]
  constructor
  · intro h
    obtain ⟨hthin, ho⟩ := Client.thinned_objects client
    calc Client.patience client
        = Client.patience (client.filter (!·.deafens)) := run_eq_iff_patience.1 (h _ hthin)
      _ = Client.waits (client.filter (!·.deafens)) := by
          rw [Client.patience, Client.heard_of_objects ho]
      _ = Client.waits client := hthin.waits_eq.symm
  · intro ha client' hthin
    refine run_eq_of_patience ?_
    calc Client.patience client
        = Client.waits client := ha
      _ = Client.waits client' := hthin.waits_eq
      _ = Client.patience client' :=
          (Client.attentive_iff.1 (hthin.attentive (Client.attentive_iff.2 ha))).symm

/-- A request to stop. -/
def stopRequest : ClientEvent := .message (.object [("type", .string "stop")])

/-- After a message that is no object, a request to stop is not heard: the
    program that prints for ever is cut off at its limit, and not stopped. -/
theorem run_deaf_to_stop :
    Client.Thinned [.message (.integer 5), stopRequest] [stopRequest] ∧
      (run (some askForever) [.message (.integer 5), stopRequest] 100 none).sent ≠
        (run (some askForever) [stopRequest] 100 none).sent := by
  have hdeaf : Client.stopTime (Client.heard [.message (.integer 5), stopRequest]) = ⊤ :=
    Client.stopTime_nil
  have hstop : Client.stopTime (Client.heard [stopRequest]) = (100 : Nat) := by
    have hs : stopRequest.stops = true := by decide
    have hh : Client.heard [stopRequest] = [stopRequest] := rfl
    simp [hh, Client.stopTime, Client.waits_cons, hs, Stream.pauseEvery]
  have hcut : (Machine.start forever).Ends 100 _ _ _ false .unfinished :=
    .unfinished (steps_forever 50) rfl (hdeaf ▸ ENat.natCast_lt_top 100) rfl
  have hstopped : (Machine.start forever).Ends 100 _ _ _ true .finished :=
    .stopped (steps_forever 50) hstop.symm (by decide)
  have hsent : (run (some askForever) [.message (.integer 5), stopRequest] 100 none).sent =
      .started :: List.replicate 50 (.output "x") ++
        [.aborted "StepLimitError: Program still running after 100 statements"] :=
    run_of_ends rfl parse_forever hcut
  have hsent' : (run (some askForever) [stopRequest] 100 none).sent =
      .started :: List.replicate 50 (.output "x") ++ [.finished true] :=
    run_of_ends rfl parse_forever hstopped
  refine ⟨.drop rfl (.keep _ .nil), ?_⟩
  rw [hsent, hsent']
  decide

end Session

end GotoBasic
