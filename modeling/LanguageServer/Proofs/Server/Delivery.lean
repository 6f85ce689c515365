import LanguageServer.Proofs.Server.Effect
import LanguageServer.Proofs.Server.Order

/-!
# What is queued is written

`Session.delivery_of_run` says what becomes of the messages that are queued for the client.  They
are written in the order in which they were queued, and as long as no message fails to be written
the writer ends only when it was told to stop and nothing is left.  So all that is queued before it
is told to stop has been written when the session is over; and it is told to stop only after the
worker is done.

What is written and what is on its way out are together what was queued: `Session.Delivers`.  The
moment at which the worker is done is found by `Session.DeliveringRun.exists_windUp`.
-/

namespace LanguageServer

open Event (arrivals conclusions answers written ordered)

namespace Event

/-- The messages that are queued, in order. -/
def enqueued (events : List Event) : List RpcMessage := events.filterMap queued?

/-- One more event queues at most one more message. -/
theorem enqueued_append (events : List Event) (event : Event) :
    enqueued (events ++ [event]) = enqueued events ++ event.queued?.toList := by
  cases h : event.queued? <;> simp [enqueued, h]

/-- The message that the callback for a message sends in an event, whether it is queued or given
up. -/
def sentBy? (number : Nat) : Event → Option RpcMessage
  | .queued (.callback k) m => if k = number then some m else none
  | .dropped (.callback k) m => if k = number then some m else none
  | _ => none

/-- What the callback for a message sends, in order. -/
def sentBy (number : Nat) (events : List Event) : List RpcMessage :=
  events.filterMap (sentBy? number)

/-- What a callback sends is an event of the work on its message. -/
theorem actor?_of_sentBy? {number : Nat} {event : Event} {m : RpcMessage}
    (h : sentBy? number event = some m) : event.actor? = some number := by
  cases event with
  | queued sender message | dropped sender message =>
    cases sender with
    | callback k =>
      simp only [sentBy?, Option.ite_none_right_eq_some] at h
      exact congrArg some h.1
    | reader | answer k => cases h
  | _ => cases h

/-- As long as nothing is given up, what a callback sends is queued. -/
theorem sentBy_sublist {number : Nat} {events : List Event}
    (h : ∀ e ∈ events, e.isDropped = false) : (sentBy number events).Sublist (enqueued events) := by
  induction events with
  | nil => exact .slnil
  | cons e events ih =>
    have ih := ih fun e he => h e (List.mem_cons_of_mem _ he)
    have hd := h e List.mem_cons_self
    rw [sentBy, enqueued, List.filterMap_cons, List.filterMap_cons]
    cases e with
    | dropped sender m => cases hd
    | queued sender m =>
      cases hs : sentBy? number (.queued sender m) with
      | none => exact ih.cons m
      | some m' =>
        -- It is sent as it stands, by the callback of this message.
        have hm : m' = m := by
          cases sender with
          | callback k =>
            simp only [sentBy?, Option.ite_none_right_eq_some, Option.some.injEq] at hs
            exact hs.2.symm
          | reader | answer k => cases hs
        rw [hm]
        exact ih.cons_cons m
    | _ => exact ih

/-- What is queued on account of a message is queued. -/
theorem mem_enqueued_of_mem_answers (number : Nat) {events : List Event} {m : RpcMessage}
    (h : m ∈ answers number events) : m ∈ enqueued events := by
  obtain ⟨e, he, hm⟩ := List.mem_filterMap.1 h
  refine List.mem_filterMap.2 ⟨e, he, ?_⟩
  cases e with
  | queued sender m' =>
    cases sender with
    | answer k =>
      -- An answer is queued by the one who answers.
      simp only [answerTo?, Option.ite_none_right_eq_some] at hm
      exact hm.2
    | reader | callback k => cases hm
  | _ => cases hm

end Event

namespace Connection

variable (c : Connection) (number : Nat) (m : RpcMessage)

/-- Taking a message queues nothing. -/
theorem outgoing_takeIn : (c.takeIn number m).outgoing = c.outgoing := by
  cases m with
  | request q | response r => rfl
  | notification q =>
    simp only [takeIn]
    split
    · simp only [cancel]
      split <;> rfl
    · rfl

/-- Taking a message does not stop the writer. -/
theorem writing_takeIn : (c.takeIn number m).writing = c.writing := by
  cases m with
  | request q | response r => rfl
  | notification q =>
    simp only [takeIn]
    split
    · exact (c.cancel_eq _).1
    · rfl

end Connection

namespace Session

variable {s t u : Session} {event : Event} {events before after : List Event} {m : Move}
  {server : Server} {number : Nat}

/-- Whether a message fails to be written in a move. -/
def FailsToWrite (s : Session) : Move → Prop
  | .step .writer =>
    s.connection.writing = true ∧ s.connection.outgoing ≠ [] ∧ s.hungUp = true
  | _ => False

/-- The events on the way from a session to a later state of it, when no message fails to be
written. -/
inductive DeliveringRun (s : Session) : List Event → Session → Prop
  | start : DeliveringRun s [] s
  | next {events : List Event} {t u : Session} {event : Event} (m : Move) :
    DeliveringRun s events t → ¬ t.FailsToWrite m → t.move m = some (event, u) →
    DeliveringRun s (events ++ [event]) u

/-- A run in which all that is written gets through is a run. -/
theorem DeliveringRun.run (h : s.DeliveringRun events t) : s.Run events t := by
  induction h with
  | start => exact .start
  | next m _ _ hm ih => exact .next m ih hm

/-- Two of them, one after the other, make one. -/
theorem DeliveringRun.trans (first : s.DeliveringRun before t) (second : t.DeliveringRun after u) :
    s.DeliveringRun (before ++ after) u := by
  induction second with
  | start => simpa using first
  | next m _ hf hm ih =>
    rw [← List.append_assoc]
    exact .next m ih hf hm

/-- The client does not hang up when a message is taken. -/
private theorem hungUp_of_take (s : Session) (m : RpcMessage) : (s.take m).hungUp = s.hungUp := by
  cases m <;> grind [take, takeRequest, takeNotification, stop]

/-- No party makes the client stop receiving. -/
private theorem hungUp_of_step {party : Party} (h : s.step party = some (event, t)) :
    t.hungUp = s.hungUp := by
  cases party with
  | reader =>
    simp only [step, stepReader, read] at h
    grind [stop, hungUp_of_take]
  | worker =>
    simp only [step, stepWorker] at h
    grind [Option.map_eq_some_iff]
  | job number =>
    simp only [step, stepJob] at h
    grind [Option.map_eq_some_iff]
  | writer =>
    simp only [step, stepWriter] at h
    grind

/-- Every message is written to a client that does not stop receiving. -/
theorem deliveringRun_of_run (h : s.Run events t) (ht : t.hungUp = false) :
    s.DeliveringRun events t := by
  induction h with
  | start => exact .start
  | @next events t u event m _ hm ih =>
    -- Who has not hung up in the end has not before.
    have hs : t.hungUp = false := by
      cases m with
      | receive _ | endInput =>
        simp only [move, Option.some.injEq, Prod.mk.injEq] at hm
        rw [← hm.2] at ht
        exact ht
      | hangUp =>
        simp only [move, Option.some.injEq, Prod.mk.injEq] at hm
        rw [← hm.2] at ht
        cases ht
      | step party => exact (hungUp_of_step hm).symm.trans ht
    refine .next m (ih hs) (fun hf => ?_) hm
    cases m with
    | step party =>
      cases party with
      -- Only the writer can fail, and only when the client has hung up.
      | writer => exact absurd hf.2.2 (by simp [hs])
      | reader | worker | job _ => exact hf
    | receive _ | endInput | hangUp => exact hf

/-! ## What a move does to the messages on their way out -/

/-- What a move does to the messages on their way out: it may queue one, or the first is written, or
the writer ends. -/
inductive Outflow (s : Session) (m : Move) (event : Event) (t : Session) : Prop
  | queues : s.connection.Queues event t.connection → event.wrote? = none → Outflow s m event t
  | writes {message : RpcMessage} : event = .wrote message → s.connection.writing = true →
    t.connection.writing = true → s.connection.outgoing = message :: t.connection.outgoing →
    Outflow s m event t
  | fails : event = .quiet → s.FailsToWrite m → s.connection.writing = true →
    t.connection.writing = false → Outflow s m event t
  | ends : event = .quiet → s.phase = .stopping → s.connection.writing = true →
    s.connection.outgoing = [] → t.connection.writing = false → Outflow s m event t

/-- What a move does to the queue and the writer. -/
theorem Effect.outflow (h : s.Effect m event t) : s.Outflow m event t := by
  cases h with
  | outward ho hc _ _ =>
    cases event with
    | received _ | stopped _ | quiet =>
      exact .queues (.of_eq (by rw [hc]) (by rw [hc]) rfl rfl) rfl
    | _ => simp [Event.isOutward] at ho
  | winds hc _ _ => exact .queues (.of_eq (by rw [hc]) (by rw [hc]) rfl rfl) rfl
  | givesUp _ hc _ _ => exact .queues (.of_eq (hc ▸ rfl) (hc ▸ rfl) rfl rfl) rfl
  -- An event of sending shows the message, unless the writer is gone.
  | @rejects answer _ hc _ _ =>
    refine .queues (hc ▸ s.connection.queues_send _ _) ?_
    rcases Work.event_send_eq s.connection .reader (.response answer) with he | he <;> rw [he] <;>
      rfl
  | takes _ hc _ _ =>
    have hw := s.connection.writing_takeIn s.taken
    have ho := s.connection.outgoing_takeIn s.taken
    exact .queues (.of_eq (hc ▸ hw _) (hc ▸ ho _) rfl rfl) rfl
  | advances _ _ ha _ _ =>
    obtain ⟨hp, hq⟩ := Work.passage_of_advance ha
    exact .queues hq hp.wrote?_eq_none
  | writes hw ho hc _ _ => exact .writes rfl hw (by rw [hc]; exact hw) (by rw [hc]; exact ho)
  | ends hw hwhy hc _ _ =>
    rcases hwhy with ⟨ho, hh⟩ | ⟨ho, hp⟩
    · exact .fails rfl ⟨hw, ho, hh⟩ hw (by rw [hc])
    · exact .ends rfl hp hw ho (by rw [hc])

/-- What is written comes first among what was queued; the rest is on its way out, unless a message
has failed to be written. -/
structure Delivers (events : List Event) (s : Session) : Prop where
  isPrefix : written events <+: Event.enqueued events
  append_eq : s.connection.writing = true →
    written events ++ s.connection.outgoing = Event.enqueued events

/-- After a move what is written and what is still queued make up all that was ever queued. -/
theorem Delivers.next (hs : s.Delivers events) (h : s.Outflow m event t) :
    t.Delivers (events ++ [event]) := by
  cases h with
  | queues hq hw =>
    have hwritten : written (events ++ [event]) = written events := by
      simp [Event.written_append, hw]
    refine ⟨?_, fun hwriting => ?_⟩
    · rw [hwritten, Event.enqueued_append]
      exact hs.isPrefix.trans (List.prefix_append _ _)
    · rw [hwritten, Event.enqueued_append, hq.outgoing_eq, ← List.append_assoc,
        hs.append_eq (hq.writing_eq ▸ hwriting)]
  | @writes message he hws hwt ho =>
    subst he
    -- The first of the queue goes to the written ones.
    have hall := hs.append_eq hws
    rw [ho] at hall
    have hwritten : written (events ++ [.wrote message]) = written events ++ [message] :=
      Event.written_append events (.wrote message)
    have henqueued : Event.enqueued (events ++ [.wrote message]) = Event.enqueued events := by
      rw [Event.enqueued_append]
      exact List.append_nil _
    have happend : written (events ++ [.wrote message]) ++ t.connection.outgoing =
        Event.enqueued (events ++ [.wrote message]) := by
      rw [hwritten, henqueued, ← hall, List.append_assoc, List.singleton_append]
    exact ⟨⟨_, happend⟩, fun _ => happend⟩
  | fails he _ _ hwt | ends he _ _ _ hwt =>
    subst he
    -- The writer stops: nothing is written, and nothing queued.
    have hwritten : written (events ++ [.quiet]) = written events := by
      rw [Event.written_append]
      exact List.append_nil _
    have henqueued : Event.enqueued (events ++ [.quiet]) = Event.enqueued events := by
      rw [Event.enqueued_append]
      exact List.append_nil _
    exact ⟨by rw [hwritten, henqueued]; exact hs.isPrefix, fun hw => by simp [hwt] at hw⟩

/-- So it is after every run. -/
theorem delivers_of_run (h : server.session.Run events s) : s.Delivers events := by
  induction h with
  | start => exact ⟨List.nil_prefix, fun _ => rfl⟩
  | next m hrun hm ih =>
    exact ih.next (effect_of_move (accounts_of_run hrun).nodup hm).outflow

/-- The writer ends only when it was told to, and the session is over only after that. -/
structure WritesOn (s : Session) : Prop where
  woundUp : s.connection.writing = false → s.phase.isWoundUp = true
  ended : s.phase = .returned → s.connection.writing = false

/-- A session that is wound up stays so. -/
theorem Progress.isWoundUp {phase : Phase} (h : s.Progress phase)
    (hp : s.phase.isWoundUp = true) : phase.isWoundUp = true := by
  cases h with
  | stays => exact hp
  | stops h | closes h | clears h => simp [h, Phase.isWoundUp] at hp
  | drains _ _ _ | returns _ _ => rfl

/-- A move leads to a later phase, if to another one. -/
theorem Effect.progress (h : s.Effect m event t) :
    s.Progress t.phase ∨ s.phase = .cancelling ∧ t.phase = .releasing := by
  cases h with
  | outward _ _ _ hp | winds _ _ hp | rejects _ _ hp | takes _ _ _ hp | advances _ _ _ _ hp
  | writes _ _ _ _ hp | ends _ _ _ _ hp => exact .inl hp
  | givesUp hp _ _ ht => exact .inr ⟨hp, ht⟩

/-- The writer goes on as long as writing does not fail and the session is not wound up. -/
theorem WritesOn.next (hs : s.WritesOn) (h : s.Effect m event t) (hm : ¬ s.FailsToWrite m) :
    t.WritesOn := by
  have hwound (hp : s.phase.isWoundUp = true) : t.phase.isWoundUp = true := by
    rcases h.progress with hprogress | ⟨hc, -⟩
    · exact hprogress.isWoundUp hp
    · simp [hc, Phase.isWoundUp] at hp
  -- The writer does not come back.
  have hended (hw : s.connection.writing = false) : t.connection.writing = false := by
    cases h.outflow with
    | queues hq _ => exact hq.writing_eq.trans hw
    | writes _ hws _ _ => simp [hw] at hws
    | fails _ _ _ hwt | ends _ _ _ _ hwt => exact hwt
  refine ⟨fun hw => ?_, fun hp => ?_⟩
  · cases h.outflow with
    | queues hq _ => exact hwound (hs.woundUp (hq.writing_eq ▸ hw))
    | writes _ _ hwt _ => simp [hw] at hwt
    | fails _ hf _ _ => exact absurd hf hm
    -- A writer with nothing left to write ends only when it was told to stop.
    | ends _ hstop _ _ _ => exact hwound (by rw [hstop]; rfl)
  · rcases h.progress with hprogress | ⟨-, ht⟩
    · rw [hp] at hprogress
      generalize hphase : Phase.returned = phase at hprogress
      cases hprogress with
      | stays => exact hended (hs.ended hphase.symm)
      | stops _ | closes _ | clears _ | drains _ _ _ => cases hphase
      | returns _ hw => exact hended hw
    · simp [hp] at ht

/-- So it does in a run in which all gets through. -/
theorem DeliveringRun.writesOn (h : server.session.DeliveringRun events s) : s.WritesOn := by
  induction h with
  | start => exact ⟨nofun, nofun⟩
  | next m hrun hf hm ih =>
    exact ih.next (effect_of_move (accounts_of_run hrun.run).nodup hm) hf

/-- Before the session is wound up, messages are written. -/
theorem DeliveringRun.writing_eq_true (h : server.session.DeliveringRun events s)
    (hp : s.phase.isWoundUp = false) : s.connection.writing = true := by
  cases hw : s.connection.writing with
  | true => rfl
  | false => simp [h.writesOn.woundUp hw] at hp

/-- When the writer has ended, all that was queued before it was told to stop is written. -/
private theorem isPrefix_of_ended (hbefore : server.session.DeliveringRun before s)
    (hp : s.phase.isWoundUp = false) (hafter : s.DeliveringRun after t)
    (hw : t.connection.writing = false) :
    Event.enqueued before <+: written (before ++ after) := by
  induction hafter with
  | start => simp [hbefore.writing_eq_true hp] at hw
  | @next after t u event m hrun hf hm ih =>
    have hall := hbefore.run.trans hrun.run
    have he := effect_of_move (accounts_of_run hall).nodup hm
    rw [← List.append_assoc, Event.written_append]
    cases he.outflow with
    | queues hq _ =>
      exact (ih (hq.writing_eq ▸ hw)).trans (List.prefix_append _ _)
    | writes _ _ hwt _ => simp [hw] at hwt
    | fails _ hfails _ _ => exact absurd hfails hf
    | ends _ _ hws ho _ =>
      -- Nothing is left, so that all that was ever queued is written.
      have hdone := (delivers_of_run hall).append_eq hws
      rw [ho, List.append_nil] at hdone
      rw [hdone, Event.enqueued, Event.enqueued, List.filterMap_append, List.append_assoc]
      exact List.prefix_append _ _

/-- When the session is over, all that was queued before the writer was told to stop is written. -/
theorem DeliveringRun.enqueued_isPrefix (hbefore : server.session.DeliveringRun before s)
    (hp : s.phase.isWoundUp = false) (hafter : s.DeliveringRun after t)
    (ht : t.phase = .returned) : Event.enqueued before <+: written (before ++ after) :=
  isPrefix_of_ended hbefore hp hafter ((hbefore.trans hafter).writesOn.ended ht)

/-! ## The moment at which the worker is done -/

/-- A message waits for its turn when it has arrived and is of that kind. -/
theorem mem_ordered {timeout : Option Nat} {x : Context} :
    (number, x) ∈ ordered timeout events ↔
      ∃ m, (number, m) ∈ arrivals events ∧ m.context? timeout = some x ∧ x.isOrdered = true := by
  simp only [ordered, Event.ordered?, List.mem_filterMap, Option.map_eq_some_iff,
    Option.filter_eq_some_iff, Prod.mk.injEq]
  constructor
  · rintro ⟨⟨k, m⟩, hm, y, ⟨hy, ho⟩, rfl, rfl⟩
    exact ⟨m, hm, hy, ho⟩
  · rintro ⟨m, hm, hx, ho⟩
    exact ⟨(number, m), hm, x, ⟨hx, ho⟩, rfl, rfl⟩

/-- The messages that are handled in turn are not among the jobs. -/
theorem not_mem_jobs {timeout : Option Nat} {x : Context} (ha : s.Accounts timeout events)
    (hs : s.InTurn timeout events) (hx : (number, x) ∈ ordered timeout events) {w : Work}
    (hw : w ∈ s.jobs) : w.number ≠ number := by
  rintro rfl
  obtain ⟨m, hm, hcontext, ho⟩ := mem_ordered.1 hx
  obtain ⟨m', hm', hcontext'⟩ := ha.known w (by simp [works, hw])
  rw [ha.arrival_unique hm' hm, hcontext, Option.some.injEq] at hcontext'
  rw [hcontext', hs.jobs w hw] at ho
  cases ho

/-- Once the worker is done nothing is taken, and nothing happens on account of what is handled in
turn. -/
theorem Effect.of_idle {timeout : Option Nat} (h : s.Effect m event t)
    (ha : s.Accounts timeout events) (hs : s.InTurn timeout events) (hr : s.phase ≠ .reading)
    (hq : s.queue = []) (hc : s.current = none) :
    event.arrival? = none ∧
      ∀ number x, (number, x) ∈ ordered timeout events → event.actor? ≠ some number := by
  refine ⟨?_, fun number x hx hactor => ?_⟩
  · cases h with
    | outward ho _ _ _ => cases event <;> simp_all [Event.isOutward, Event.arrival?]
    | winds _ _ _ | givesUp _ _ _ _ | writes _ _ _ _ _ | ends _ _ _ _ _ => rfl
    | @rejects answer _ _ _ _ =>
      rcases Work.event_send_eq s.connection .reader (.response answer) with he | he <;> rw [he] <;>
        rfl
    | takes hp _ _ _ => exact absurd hp hr
    | advances _ _ ha _ _ => exact (Work.passage_of_advance ha).1.input_eq.1
  · rcases h.works_cases with ⟨w, w', rest, hb, hadvance, -⟩ | ⟨hn, -⟩
    · have hw : w ∈ s.works := hb.mem_iff.2 List.mem_cons_self
      simp only [works, hc, hq, Option.toList_none, List.nil_append] at hw
      -- The only work that is left is that of jobs, which wait for no turn.
      exact not_mem_jobs ha hs hx hw (Work.number_of_actor hadvance hactor).symm
    · simp [hn] at hactor

/-- A session that is wound up was told to when the worker was done; since then nothing is taken and
nothing happens on account of what is handled in turn. -/
theorem DeliveringRun.exists_windUp (h : server.session.DeliveringRun events s)
    (hp : s.phase.isWoundUp = true) :
    ∃ before after t, events = before ++ after ∧ server.session.DeliveringRun before t ∧
      t.phase.isWoundUp = false ∧ t.queue = [] ∧ t.current = none ∧ t.DeliveringRun after s ∧
      ∀ e ∈ after, e.arrival? = none ∧ ∀ number x,
        (number, x) ∈ ordered server.requestTimeout before → e.actor? ≠ some number := by
  induction h with
  | start => cases hp
  | @next events s u event m hrun hf hm ih =>
    have ha := accounts_of_run hrun.run
    have hs := inTurn_of_run hrun.run
    have he := effect_of_move ha.nodup hm
    by_cases hwound : s.phase.isWoundUp = true
    · obtain ⟨before, after, t, rfl, hbefore, ht, hq, hc, hafter, hidle⟩ := ih hwound
      refine ⟨before, after ++ [event], t, by simp, hbefore, ht, hq, hc, .next m hafter hf hm, ?_⟩
      intro e hin
      rcases List.mem_append.1 hin with hin | hin
      · exact hidle e hin
      · rw [List.mem_singleton.1 hin]
        have hr : s.phase ≠ .reading := fun hr => by simp [hr, Phase.isWoundUp] at hwound
        obtain ⟨hq, hc⟩ := hs.woundUp hwound
        obtain ⟨hnone, hactor⟩ := he.of_idle ha hs hr hq hc
        refine ⟨hnone, fun number x hx => hactor number x ?_⟩
        rw [ordered, arrivals, List.filterMap_append, List.filterMap_append]
        exact List.mem_append_left _ hx
    · -- This is the move that winds the session up.
      have hidle : s.phase ≠ .reading ∧ s.queue = [] ∧ s.current = none := by
        rcases he.progress with hprogress | ⟨-, ht⟩
        · generalize u.phase = phase at hprogress hp
          cases hprogress with
          | stays => exact absurd hp hwound
          | stops _ | closes _ | clears _ => cases hp
          | drains hd hq hc => exact ⟨by simp [hd], hq, hc⟩
          | returns hs _ => simp [hs, Phase.isWoundUp] at hwound
        · simp [ht, Phase.isWoundUp] at hp
      obtain ⟨hr, hq, hc⟩ := hidle
      refine ⟨events, [event], s, rfl, hrun, by simpa using hwound, hq, hc, .next m .start hf hm,
        ?_⟩
      intro e hin
      rw [List.mem_singleton.1 hin]
      exact he.of_idle ha hs hr hq hc

/-- When the session is over, the answer to a request that was done with before the writer was told
to stop is written. -/
theorem DeliveringRun.answer_mem_written (hbefore : server.session.DeliveringRun before s)
    (hp : s.phase.isWoundUp = false) (hafter : s.DeliveringRun after t) (ht : t.phase = .returned)
    {q : RequestMessage} (hq : Event.taken number (.request q) ∈ before)
    (hn : number ∉ s.numbers) :
    ∃ c, conclusions number before = [c] ∧
      .response (c.answer q.id q.method) ∈ written (before ++ after) := by
  -- The answer is queued before the session winds up, and so it is written.
  obtain ⟨hone, hanswers⟩ := (answers_of_request hbefore.run hq).2.2 hn
  obtain ⟨c, hc⟩ := List.length_eq_one_iff.1 hone
  refine ⟨c, hc, (hbefore.enqueued_isPrefix hp hafter ht).subset ?_⟩
  refine Event.mem_enqueued_of_mem_answers number ?_
  rw [hanswers (hbefore.writing_eq_true hp), hc]
  exact List.mem_singleton_self _

/-- What the messages that are handled in turn come to is written when the session is over: what
their callbacks send, and the answers to the requests among them. -/
theorem DeliveringRun.ordered_written (h : server.session.DeliveringRun events s)
    (hp : s.phase = .returned) {x : Context}
    (hx : (number, x) ∈ ordered server.requestTimeout events) :
    (Event.sentBy number events).Sublist (written events) ∧
      ∀ q, Event.taken number (.request q) ∈ events →
        ∃ c, conclusions number events = [c] ∧
          .response (c.answer q.id q.method) ∈ written events := by
  obtain ⟨before, after, t, rfl, hbefore, ht, hqueue, hcurrent, hafter, hidle⟩ :=
    h.exists_windUp (by rw [hp]; rfl)
  have ha := accounts_of_run hbefore.run
  have hs := inTurn_of_run hbefore.run
  -- Whatever was taken was taken before the writer was told to stop.
  have hnone : arrivals after = [] :=
    List.filterMap_eq_nil_iff.2 fun e he => (hidle e he).1
  have harrivals : arrivals (before ++ after) = arrivals before := by
    rw [arrivals, List.filterMap_append]
    exact (congrArg _ hnone).trans (List.append_nil _)
  rw [ordered, harrivals] at hx
  -- From then on nothing happens on its account.
  have hsent : Event.sentBy number after = [] := by
    refine List.filterMap_eq_nil_iff.2 fun e he => ?_
    cases hm : Event.sentBy? number e with
    | none => rfl
    | some m => exact absurd (Event.actor?_of_sentBy? hm) ((hidle e he).2 number x hx)
  have hconclusions : conclusions number after = [] := by
    refine List.filterMap_eq_nil_iff.2 fun e he => ?_
    cases hm : Event.conclusionOf? number e with
    | none => rfl
    | some c => exact absurd (Event.actor?_of_conclusionOf? hm) ((hidle e he).2 number x hx)
  refine ⟨?_, fun q hq => ?_⟩
  · have hdropped := isDropped_of_run hbefore.run (hbefore.writing_eq_true ht)
    rw [Event.sentBy, List.filterMap_append]
    rw [Event.sentBy] at hsent
    rw [hsent, List.append_nil]
    exact (Event.sentBy_sublist hdropped).trans
      (hbefore.enqueued_isPrefix ht hafter hp).sublist
  · have hin : Event.taken number (.request q) ∈ before :=
      mem_arrivals.1 (harrivals ▸ mem_arrivals.2 hq)
    have hgone : number ∉ t.numbers := by
      intro hn
      obtain ⟨w, hw, he⟩ := mem_numbers.1 hn
      have hw : w ∈ t.jobs := by simpa [works, hcurrent, hqueue] using hw
      exact not_mem_jobs ha hs hx hw he
    obtain ⟨c, hc, hm⟩ := hbefore.answer_mem_written ht hafter hp hin hgone
    refine ⟨c, ?_, hm⟩
    rw [conclusions, List.filterMap_append]
    rw [conclusions] at hconclusions hc
    rw [hconclusions, List.append_nil, hc]

/-- Nothing that is queued is lost on the way out, whatever order the parties take their steps in
and however reading ends.

* What is written are the first of the messages that were queued, in their order.
* As long as no message fails to be written, all that was queued before the writer was told to stop
  has been written when the session is over; that goes for the answer to every request that was done
  with by then.
* It also goes for the answer to every `shutdown`, and for all that callbacks send for messages that
  are handled in turn. -/
theorem delivery_of_run (server : Server) :
    (∀ events s, server.session.Run events s → written events <+: Event.enqueued events) ∧
    (∀ before s after t, server.session.DeliveringRun before s → s.phase.isWoundUp = false →
      s.DeliveringRun after t → t.phase = .returned →
      Event.enqueued before <+: written (before ++ after) ∧
      ∀ number q, Event.taken number (.request q) ∈ before → number ∉ s.numbers →
        ∃ c, conclusions number before = [c] ∧
          .response (c.answer q.id q.method) ∈ written (before ++ after)) ∧
    (∀ events s, server.session.DeliveringRun events s → s.phase = .returned →
      (∀ number q, Event.taken number (.request q) ∈ events → q.method = Method.shutdown →
        ∃ c, conclusions number events = [c] ∧
          .response (c.answer q.id q.method) ∈ written events) ∧
      ∀ number x, (number, x) ∈ ordered server.requestTimeout events →
        (Event.sentBy number events).Sublist (written events)) := by
  refine ⟨fun events s h => (delivers_of_run h).isPrefix,
    fun before s after t hbefore hp hafter ht => ⟨hbefore.enqueued_isPrefix hp hafter ht, ?_⟩,
    fun events s h hp => ⟨?_, ?_⟩⟩
  · exact fun number q hq hn => hbefore.answer_mem_written hp hafter ht hq hn
  · intro number q hq hm
    -- A shutdown waits for its turn, so that it is over when the session returns.
    have hx : (number, q.context server.requestTimeout) ∈ ordered server.requestTimeout events :=
      mem_ordered.2 ⟨.request q, mem_arrivals.2 hq, rfl, by
        simp [Context.isOrdered, RequestMessage.context, hm]⟩
    exact (h.ordered_written hp hx).2 q hq
  · exact fun number x hx => (h.ordered_written hp hx).1

/-- A request whose callback panics is answered, and the answer waits to be written; `shutdown` and
`exit` are still to be read. -/
def exampleAnswered : List Event × Session :=
  let bytes := [
    "\x7b\"jsonrpc\":\"2.0\",\"id\":7,\"method\":\"boom\"\x7d",
    "\x7b\"jsonrpc\":\"2.0\",\"id\":8,\"method\":\"shutdown\"\x7d",
    "\x7b\"jsonrpc\":\"2.0\",\"method\":\"exit\"\x7d"].flatMap
    fun body => (Frame.ofContent body).bytes
  exampleServer.session.play
    ([.receive bytes, .step .reader] ++ List.replicate 5 (.step (.job 0)))

/-- The session goes on to its end. -/
def exampleOver : List Event × Session := exampleAnswered.2.settle 60

/-- It is a run of the server. -/
theorem run_exampleAnswered :
    exampleServer.session.Run exampleAnswered.1 exampleAnswered.2 :=
  run_play exampleServer.session _

/-- It goes on from there. -/
theorem run_exampleOver : exampleAnswered.2.Run exampleOver.1 exampleOver.2 :=
  run_settle 60 exampleAnswered.2

/-- Both answers are written in the end, although neither was when the first was queued. -/
theorem delivery_of_exampleOver :
    written exampleAnswered.1 = [] ∧ exampleOver.2.phase = .returned ∧
      ∀ number ∈ [0, 1], ∃ q, ∃ c : Conclusion,
        Event.taken number (.request q) ∈ exampleAnswered.1 ++ exampleOver.1 ∧
        .response (c.answer q.id q.method) ∈ written (exampleAnswered.1 ++ exampleOver.1) := by
  obtain ⟨hwritten, hread, hdone, hhung, hreturned, hover, hfirst, hsecond⟩ :
      (written exampleAnswered.1).isEmpty = true ∧
      exampleAnswered.2.phase = .reading ∧ 0 ∉ exampleAnswered.2.numbers ∧
      exampleAnswered.2.hungUp = false ∧ exampleOver.2.phase = .returned ∧
      exampleOver.2.hungUp = false ∧
      0 < ((arrivals exampleAnswered.1).filter fun p => p.1 == 0 && p.2.isRequest).length ∧
      0 < ((arrivals (exampleAnswered.1 ++ exampleOver.1)).filter fun p =>
        p.1 == 1 && p.2.isRequest && p.2.method? == some Method.shutdown).length := by
    decide +kernel
  have hbefore := deliveringRun_of_run run_exampleAnswered hhung
  have hafter := deliveringRun_of_run run_exampleOver hover
  obtain ⟨-, hqueued, hordered⟩ := delivery_of_run exampleServer
  refine ⟨List.isEmpty_iff.1 hwritten, hreturned, fun number hn => ?_⟩
  simp only [List.mem_cons, List.not_mem_nil, or_false] at hn
  rcases hn with rfl | rfl
  · -- The first was answered before the session wound up, the second is `shutdown`.
    obtain ⟨⟨k, m⟩, hp⟩ := List.exists_mem_of_length_pos hfirst
    simp only [List.mem_filter, Bool.and_eq_true, beq_iff_eq] at hp
    obtain ⟨hm, rfl, hr⟩ := hp
    cases m with
    | notification _ | response _ => cases hr
    | request q =>
      have hq := mem_arrivals.1 hm
      obtain ⟨c, -, hc⟩ := (hqueued _ _ _ _ hbefore (by rw [hread]; rfl) hafter hreturned).2
        0 q hq hdone
      exact ⟨q, c, List.mem_append_left _ hq, hc⟩
  · obtain ⟨⟨k, m⟩, hp⟩ := List.exists_mem_of_length_pos hsecond
    simp only [List.mem_filter, Bool.and_eq_true, beq_iff_eq] at hp
    obtain ⟨hm, ⟨rfl, hr⟩, hmethod⟩ := hp
    cases m with
    | notification _ | response _ => cases hr
    | request q =>
      have hq := mem_arrivals.1 hm
      obtain ⟨c, -, hc⟩ := (hordered _ _ (hbefore.trans hafter) hreturned).1 1 q hq
        (Option.some.inj hmethod)
      exact ⟨q, c, hq, hc⟩

end Session

end LanguageServer
