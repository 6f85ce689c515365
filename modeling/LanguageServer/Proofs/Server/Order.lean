import LanguageServer.Proofs.Server.Intake

/-!
# Notifications and shutdown are handled in turn

`Session.turns_of_run` says that the notifications and the `shutdown` requests of a session are
handled one after the other in the order in which they were taken, whatever else goes on and however
their callbacks end, and that all of them are handled before the session is over.

The invariant is `Session.InTurn`: of the messages that were taken, those that are done with come
first, then the one that the worker has in hand, and then its queue.
-/

namespace LanguageServer

open Event (arrivals arrivals_append)

/-- The beginning or the end of the handling of a message. -/
inductive Turn where
  | begins (number : Nat) (context : Context)
  | ends (number : Nat) (context : Context)

/-- The whole turn of a message. -/
def Turn.whole (p : Nat × Context) : List Turn := [.begins p.1 p.2, .ends p.1 p.2]

/-- The turn of a message that is handled in its turn, as far as it shows in a deed. -/
def Deed.turn? (number : Nat) : Deed → Option Turn
  | .begun x => if x.isOrdered then some (.begins number x) else none
  | .ended x _ => if x.isOrdered then some (.ends number x) else none
  | .answered _ => none

namespace Event

/-- The turn of a message that is handled in its turn, as far as it shows in an event. -/
def turn? : Event → Option Turn
  | .begun number x => if x.isOrdered then some (.begins number x) else none
  | .returned number x _ => if x.isOrdered then some (.ends number x) else none
  | .panicked number x _ => if x.isOrdered then some (.ends number x) else none
  | _ => none

/-- The turns of the messages that are handled in turn, in order. -/
def turns (events : List Event) : List Turn := events.filterMap turn?

/-- The message that is taken in an event, if it is to be handled in its turn. -/
def ordered? (timeout : Option Nat) (p : Nat × RpcMessage) : Option (Nat × Context) :=
  ((p.2.context? timeout).filter (·.isOrdered)).map (p.1, ·)

/-- The messages that were taken and are to be handled in turn, in order. -/
def ordered (timeout : Option Nat) (events : List Event) : List (Nat × Context) :=
  (arrivals events).filterMap (ordered? timeout)

/-- One more event adds at most one turn. -/
theorem turns_append (events : List Event) (event : Event) :
    turns (events ++ [event]) = turns events ++ event.turn?.toList := by
  cases h : event.turn? <;> simp [turns, h]

/-- One more event brings at most one message that waits for its turn. -/
theorem ordered_append (timeout : Option Nat) (events : List Event) (event : Event) :
    ordered timeout (events ++ [event]) =
      ordered timeout events ++ (event.arrival?.bind (ordered? timeout)).toList := by
  rw [ordered, arrivals_append, List.filterMap_append]
  cases h : event.arrival? with
  | none => rfl
  | some p => cases ho : ordered? timeout p <;> simp [ordered, ho]

/-- An event shows as much of a turn as it tells of the message. -/
theorem turn?_eq (event : Event) : event.turn? = event.deed?.bind fun p => p.2.turn? p.1 := by
  cases event with
  | queued sender m | dropped sender m => cases sender <;> rfl
  | _ => rfl

end Event

namespace Work

/-- How much of the turn of a message has happened at a stage of its work. -/
def turns (w : Work) : List Turn :=
  match w.stage with
  | .arrived => []
  | .chosen _ | .acting _ | .calling .. | .decided _ => [.begins w.number w.context]
  | .handled _ | .settled _ | .finished => Turn.whole (w.number, w.context)

/-- While a message is handled, it has begun. -/
theorem turns_of_isHandling {w : Work} (h : w.stage.isHandling = true) :
    w.turns = [.begins w.number w.context] := by
  simp only [turns]
  cases hs : w.stage with
  | chosen _ | acting _ | calling _ _ _ _ _ | decided _ => rfl
  | arrived | handled _ | settled _ | finished => simp [hs, Stage.isHandling] at h

/-- When the work is over, the message has had its whole turn. -/
theorem turns_of_isOver {w : Work} (h : w.isOver = true) :
    w.turns = Turn.whole (w.number, w.context) := by
  simp only [turns]
  cases hs : w.stage with
  | finished => rfl
  | _ => simp [isOver, hs] at h

/-- No more of a turn has happened than the whole. -/
theorem turns_isPrefix_whole (w : Work) : w.turns <+: Turn.whole (w.number, w.context) := by
  simp only [turns]
  split
  · exact List.nil_prefix
  all_goals simp [Turn.whole]

/-- A step of the work on a message brings its turn forward. -/
theorem Passage.turns {w w' : Work} {event : Event} (h : w.Passage event w')
    (ho : w.context.isOrdered = true) : w'.turns = w.turns ++ event.turn?.toList := by
  rw [Event.turn?_eq]
  cases h with
  | begins hs hh =>
    rw [turns_of_isHandling hh]
    simp [Work.turns, hs, Event.deed?, Deed.turn?, ho, enter]
  -- While its callback runs nothing is told of the message.
  | goesOn hs hh he =>
    rw [turns_of_isHandling hs, turns_of_isHandling hh, Event.deed?_of_isOfCallback he]
    simp [enter]
  | ends hs hd =>
    rw [turns_of_isHandling hs, hd, answerWith]
    split <;> simp [Work.turns, enter, Turn.whole, Deed.turn?, ho]
  | settles hs => cases hid : w.context.id <;> simp [Work.turns, hs, enter, Event.deed?]
  | answers hs hd => simp [Work.turns, hs, hd, enter, Deed.turn?]

/-- The work on other messages brings no turn forward. -/
theorem Passage.turn?_eq_none {w w' : Work} {event : Event} (h : w.Passage event w')
    (ho : w.context.isOrdered = false) : event.turn? = none := by
  rw [Event.turn?_eq]
  cases h with
  | begins _ _ => simp [Event.deed?, Deed.turn?, ho]
  | goesOn _ _ he => rw [Event.deed?_of_isOfCallback he]; rfl
  | settles _ => rfl
  | ends _ hd | answers _ hd => simp [hd, Deed.turn?, ho]

end Work

namespace Session

open Event (stream turns turns_append ordered ordered? ordered_append)

variable {s t : Session} {event : Event} {events : List Event} {timeout : Option Nat}

/-- The messages that are handled in turn are done with, in hand of the worker, or in its queue, in
the order in which they were taken, and their turns are as far as that says. -/
structure InTurn (timeout : Option Nat) (events : List Event) (s : Session) : Prop where
  timeout_eq : s.requestTimeout = timeout
  current : ∀ w, s.current = some w → w.context.isOrdered = true
  queue : ∀ w ∈ s.queue, w.context.isOrdered = true ∧ w.stage = .arrived
  jobs : ∀ w ∈ s.jobs, w.context.isOrdered = false
  line : ∃ past : List (Nat × Context),
    ordered timeout events =
      past ++ (s.current.toList ++ s.queue).map (fun w => (w.number, w.context)) ∧
    turns events = past.flatMap Turn.whole ++ s.current.toList.flatMap Work.turns
  woundUp : s.phase.isWoundUp = true → s.queue = [] ∧ s.current = none

/-- What is among the jobs after one was put back was there before, or is that one. -/
theorem mem_of_mem_putJob {v w : Work} {jobs : List Work} (h : v ∈ putJob w jobs) :
    v = w ∨ v ∈ jobs := by
  simp only [putJob] at h
  split at h
  · exact .inr (List.mem_filter.1 h).1
  · obtain ⟨u, hu, rfl⟩ := List.mem_map.1 h
    split
    · exact .inl rfl
    · exact .inr hu

namespace InTurn

/-- What neither takes a message nor brings a turn forward keeps the line. -/
private theorem line_of_eq (hs : s.InTurn timeout events) (event : Event)
    (ha : event.arrival?.bind (ordered? timeout) = none) (ht : event.turn? = none) :
    ∃ past : List (Nat × Context),
      ordered timeout (events ++ [event]) =
        past ++ (s.current.toList ++ s.queue).map (fun w => (w.number, w.context)) ∧
      turns (events ++ [event]) =
        past.flatMap Turn.whole ++ s.current.toList.flatMap Work.turns := by
  obtain ⟨past, ho, hp⟩ := hs.line
  exact ⟨past, by simp [ordered_append, ha, ho], by simp [turns_append, ht, hp]⟩

/-- A message that joins the queue is the last in the line. -/
private theorem next_queues {m : RpcMessage} {x : Context} {connection : Connection}
    {input : List UInt8} {phase : Phase} {outcome : Outcome Unit} (hs : s.InTurn timeout events)
    (hx : m.context? s.requestTimeout = some x) (ho : x.isOrdered = true)
    (hp : phase.isWoundUp = false) :
    InTurn timeout (events ++ [.taken s.taken m])
      { s with
        connection, input, phase, outcome
        taken := s.taken + 1
        queue := s.queue ++ [⟨s.taken, x, .arrived⟩] } := by
  obtain ⟨past, hl, ht⟩ := hs.line
  refine ⟨hs.timeout_eq, hs.current, fun w hw => ?_, hs.jobs, ⟨past, ?_, ?_⟩, by simp [hp]⟩
  · rcases List.mem_append.1 hw with hw | hw
    · exact hs.queue w hw
    · rw [List.mem_singleton.1 hw]
      exact ⟨ho, rfl⟩
  · -- The message joins the end of the line.
    have hn : ordered? timeout (s.taken, m) = some (s.taken, x) := by
      simp [ordered?, ← hs.timeout_eq, hx, ho]
    simp [ordered_append, hl, Event.arrival?, hn]
  · simp [turns_append, ht, Event.turn?]

/-- The worker takes what is first in the queue, which leaves the line as it is. -/
private theorem next_picksUp {w : Work} {rest : List Work} (hs : s.InTurn timeout events)
    (hc : s.current = none) (hq : s.queue = w :: rest) :
    InTurn timeout (events ++ [.quiet]) { s with queue := rest, current := some w } := by
  obtain ⟨hw, ha⟩ := hs.queue w (by simp [hq])
  obtain ⟨past, hl, ht⟩ := hs.line
  refine ⟨hs.timeout_eq, ?_, fun v hv => hs.queue v (by simp [hq, hv]), hs.jobs,
    ⟨past, ?_, ?_⟩, fun hp => ?_⟩
  · intro v hv
    rwa [← Option.some.inj hv]
  · simp [ordered_append, hl, Event.arrival?, hc, hq]
  · -- Nothing of its turn has happened while it was in the queue.
    simp [turns_append, ht, Event.turn?, hc, Work.turns, ha]
  · have := (hs.woundUp hp).1
    simp [hq] at this

/-- A step of the worker brings the turn in hand forward; when the work is done its whole turn joins
those that are past. -/
private theorem next_workerSteps {w w' : Work} {connection : Connection}
    (hs : s.InTurn timeout events) (hc : s.current = some w)
    (ha : w.advance s.connection = some (event, w', connection)) :
    InTurn timeout (events ++ [event])
      { s with connection, current := if w'.isOver then none else some w' } := by
  have hp := (Work.passage_of_advance ha).1
  obtain ⟨hnw, hxw⟩ := hp.number_eq
  have hw := hs.current w hc
  have htw := hp.turns hw
  obtain ⟨past, hl, ht⟩ := hs.line
  have har := hp.input_eq.1
  -- A session that has wound up has no current work, so that there is nothing to show.
  have hwound : s.phase.isWoundUp = true → s.queue = [] ∧
      (if w'.isOver then none else some w') = none := fun hpw => by
    have := (hs.woundUp hpw).2
    simp [hc] at this
  -- Work that is over leaves the head of the line; else it stays there.
  cases ho : w'.isOver with
  | true =>
    refine ⟨hs.timeout_eq, by simp, hs.queue, hs.jobs,
      ⟨past ++ [(w.number, w.context)], ?_, ?_⟩, by simpa [ho] using hwound⟩
    · simp [ordered_append, hl, har, hc]
    · rw [Work.turns_of_isOver ho, hnw, hxw] at htw
      simp [turns_append, ht, hc, htw]
  | false =>
    refine ⟨hs.timeout_eq, ?_, hs.queue, hs.jobs, ⟨past, ?_, ?_⟩, by simpa [ho] using hwound⟩
    · simp [hxw, hw]
    · simp [ordered_append, hl, har, hc, hnw, hxw]
    · simp [turns_append, ht, hc, htw]

/-- A move keeps the messages in turn. -/
theorem next (hs : s.InTurn timeout events) (h : s.Change event t) :
    t.InTurn timeout (events ++ [event]) := by
  cases h with
  | aside _ ha _ _ _ hw =>
    have hl := hs.line_of_eq event (by simp [Event.arrival?_of_isAside ha])
      (by simp [Event.turn?_eq, Event.deed?_of_isAside ha])
    refine ⟨hs.timeout_eq, hs.current, hs.queue, hs.jobs, hl, fun hp => ?_⟩
    rcases hw hp with hp | hp
    · exact hs.woundUp hp
    · exact hp
  | @resolves r _ _ =>
    have hl := hs.line_of_eq (.taken s.taken (.response r)) rfl rfl
    exact ⟨hs.timeout_eq, hs.current, hs.queue, hs.jobs, hl, hs.woundUp⟩
  | queues _ _ _ _ _ hx ho hp => exact hs.next_queues hx ho hp
  | @starts m x _ _ _ _ _ hx ho =>
    have hl := hs.line_of_eq (.taken s.taken m)
      (by simp [Event.arrival?, ordered?, ← hs.timeout_eq, hx, ho]) rfl
    refine ⟨hs.timeout_eq, hs.current, hs.queue, fun w hw => ?_, hl, hs.woundUp⟩
    rcases List.mem_append.1 hw with hw | hw
    · exact hs.jobs w hw
    · rwa [List.mem_singleton.1 hw]
  | picksUp hc hq => exact hs.next_picksUp hc hq
  | workerSteps hc ha => exact hs.next_workerSteps hc ha
  | @jobSteps event w w' _ hj ha =>
    have hp := (Work.passage_of_advance ha).1
    have hw := hs.jobs w hj
    -- What a job handles is never one of the messages in turn.
    have hl := hs.line_of_eq event (by simp [hp.input_eq.1]) (hp.turn?_eq_none hw)
    refine ⟨hs.timeout_eq, hs.current, hs.queue, fun v hv => ?_, hl, hs.woundUp⟩
    rcases mem_of_mem_putJob hv with rfl | hv
    · rwa [hp.number_eq.2]
    · exact hs.jobs v hv

end InTurn

/-- In every run messages take their turns in line. -/
theorem inTurn_of_run {server : Server} (h : server.session.Run events s) :
    s.InTurn server.requestTimeout events := by
  induction h with
  | start =>
    refine ⟨rfl, ?_, ?_, ?_, ⟨[], rfl, rfl⟩, fun _ => ⟨rfl, rfl⟩⟩ <;> simp [Server.session]
  | next m _ hm ih => exact ih.next (change_of_move hm)

/-- Notifications and `shutdown` requests are handled one at a time, each once, in the order in
which they were taken, which is their order in the stream; when the session is over all that were
taken have been handled.  Taking goes on until `exit`, the end of the stream or something that is no
frame. -/
theorem turns_of_run {server : Server} (h : server.session.Run events s) :
    turns events <+: (ordered server.requestTimeout events).flatMap Turn.whole ∧
    (s.phase = .returned →
      turns events = (ordered server.requestTimeout events).flatMap Turn.whole) ∧
    (arrivals events).map (·.2) <+:
      ((Frame.readAll server.maxMessageSize (stream events)).1.filterMap fun f =>
        (RpcMessage.ofBody f.content).toOption) ∧
    (s.phase ≠ .reading → Event.Halted server.maxMessageSize events) := by
  have hs := inTurn_of_run h
  obtain ⟨past, hl, ht⟩ := hs.line
  refine ⟨?_, fun hp => ?_, messages_of_run h, halted_of_run h⟩
  · -- Whole turns come first, and then the one that is going on.
    rw [ht, hl, List.flatMap_append, List.prefix_append_right_inj]
    cases hc : s.current with
    | none => exact List.nil_prefix
    | some w => simpa using w.turns_isPrefix_whole.trans (List.prefix_append _ _)
  · -- In the end nobody is left in line.
    obtain ⟨hq, hc⟩ := hs.woundUp (by rw [hp]; rfl)
    simp [ht, hl, hq, hc]

/-- A notification whose callback panics, and the end. -/
def exampleTurns : List String :=
  ["\x7b\"jsonrpc\":\"2.0\",\"method\":\"boom\"\x7d",
    "\x7b\"jsonrpc\":\"2.0\",\"method\":\"exit\"\x7d"]

/-- The session is over, and both have been handled. -/
theorem turns_of_exampleTurns :
    (exampleRun exampleTurns).2.phase = .returned ∧
      (turns (exampleRun exampleTurns).1).length = 4 ∧
      turns (exampleRun exampleTurns).1 =
        (ordered exampleServer.requestTimeout (exampleRun exampleTurns).1).flatMap Turn.whole := by
  obtain ⟨hp, hl⟩ : (exampleRun exampleTurns).2.phase = .returned ∧
      (turns (exampleRun exampleTurns).1).length = 4 := by decide +kernel
  obtain ⟨-, ht, -, -⟩ := turns_of_run (run_exampleRun exampleTurns)
  exact ⟨hp, hl, ht hp⟩

end Session

end LanguageServer
