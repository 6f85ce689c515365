import LanguageServer.Proofs.Server.Answer
import LanguageServer.Server.Schedule

/-!
# What a move does to the connection

`Session.Change` says what a move does to the work in hand.  Here the connection is added, which all
parties share: `Session.Effect` says of each party what it does to the connection, and to the work
in hand while it does so, and `Session.Progress` says when the session comes to its next phase.

`Session.effect_of_move` says that these are all moves.  What becomes of requests in flight, of
cancellations and of messages on their way out is read off it.
-/

namespace LanguageServer

/-- Whether an event is one of the client, or the end of reading, or nothing that shows. -/
def Event.isOutward : Event → Bool
  | .received _ => true
  | .stopped _ => true
  | .quiet => true
  | _ => false

/-- The message that is written in an event. -/
def Event.wrote? : Event → Option RpcMessage
  | .wrote m => some m
  | _ => none

/-- One more event writes at most one more message. -/
theorem Event.written_append (events : List Event) (event : Event) :
    written (events ++ [event]) = written events ++ event.wrote?.toList := by
  cases event <;> simp [written, wrote?]

/-- Work on a message writes nothing: it only queues. -/
theorem Work.Passage.wrote?_eq_none {w w' : Work} {event : Event} (h : w.Passage event w') :
    event.wrote? = none := by
  cases h with
  | begins _ _ | settles _ => rfl
  -- What a callback does, and what is said of it, is never a write.
  | goesOn _ _ he =>
    cases event with
    | wrote _ => simp [Event.isOfCallback] at he
    | _ => rfl
  | ends _ hd | answers _ hd =>
    cases event with
    | wrote _ => simp [Event.deed?] at hd
    | _ => rfl

/-- The message on whose account something is sent. -/
def Sender.number? : Sender → Option Nat
  | .reader => none
  | .answer number => some number
  | .callback number => some number

/-- The message on whose account something happens in an event. -/
def Event.actor? : Event → Option Nat
  | .begun number _ => some number
  | .invoked number => some number
  | .noted number _ => some number
  | .returned number _ _ => some number
  | .panicked number _ _ => some number
  | .queued sender _ => sender.number?
  | .dropped sender _ => sender.number?
  | _ => none

/-- A conclusion is an event of the work on the message. -/
theorem Event.actor?_of_conclusionOf? {number : Nat} {event : Event} {c : Conclusion}
    (h : conclusionOf? number event = some c) : event.actor? = some number := by
  cases event with
  | returned k x result | panicked k x text =>
    simp only [conclusionOf?, Option.ite_none_right_eq_some] at h
    exact congrArg some h.1
  | _ => cases h

namespace Work

variable {w w' : Work} {c c' : Connection} {event : Event} {number : Nat}

/-- Who sends a message acts, whether it is queued or given up. -/
private theorem actor_send (sender : Sender) (m : RpcMessage) :
    (c.send sender m).1.actor? = sender.number? := by
  rcases event_send_eq c sender m with h | h <;> rw [h] <;> rfl

/-- A step of the work on a message happens on account of that message. -/
theorem actor_of_advance (h : w.advance c = some (event, w', c')) :
    event.actor? = none ∨ event.actor? = some w.number := by
  cases stride_of_advance h with
  | refuses _ _ | rejects _ _ _ | ends _ | calls _ | wakes _ _ | handles _ _ | settles _ _
  | lapses _ _ => exact .inl rfl
  | turnsAway _ _ | chooses _ _ | starts _ _ _ | panics _ | notes _ | concludes _ => exact .inr rfl
  | notifies _ | answers _ => exact .inr (actor_send _ _)
  | goesOn _ hstep | returns _ hstep =>
    -- A step of a call is quiet or sends the request.
    rcases CallStage.step_cases hstep with ⟨rfl, -⟩ | hs
    · exact .inl rfl
    · rw [Prod.mk.injEq] at hs
      rw [hs.1]
      exact .inr (actor_send _ _)

/-- Only the work that takes the step acts. -/
theorem number_of_actor (h : w.advance c = some (event, w', c'))
    (hn : event.actor? = some number) : number = w.number := by
  rcases actor_of_advance h with ha | ha
  · rw [ha] at hn
    cases hn
  · rw [ha, Option.some.injEq] at hn
    exact hn.symm

end Work

/-- What becomes of the connection when a message is taken: a request is in flight, the request that
a notification gives up is given up, and a response is handed over. -/
def Connection.takeIn (number : Nat) (c : Connection) : RpcMessage → Connection
  | .request m => c.track m.id number
  | .notification m =>
    match Session.cancelTarget? m with
    | some id => c.cancel id
    | none => c
  | .response m => { c with calls := c.calls.complete m }

namespace Session

/-- How one phase follows another; the phase after `cancelling` is left out, since what ends it is
no mere progress. -/
inductive Progress (s : Session) : Phase → Prop
  | stays : Progress s s.phase
  | stops : s.phase = .reading → Progress s .closing
  | closes : s.phase = .closing → Progress s .cancelling
  | clears : s.phase = .releasing → Progress s .draining
  | drains : s.phase = .draining → s.queue = [] → s.current = none → Progress s .stopping
  | returns : s.phase = .stopping → s.connection.writing = false → Progress s .returned

/-- What a move does to the connection and to the work in hand. -/
inductive Effect (s : Session) : Move → Event → Session → Prop
  /-- The connection stays: the client, the end of reading, the end of the session, or the worker
  that picks up what is next. -/
  | outward {m : Move} {event : Event} {t : Session} : event.isOutward = true →
    t.connection = s.connection → t.works = s.works → s.Progress t.phase → Effect s m event t
  /-- The reader closes the calls, or gives up those that wait. -/
  | winds {calls : Calls} {t : Session} : t.connection = { s.connection with calls } →
    t.works = s.works → s.Progress t.phase → Effect s (.step .reader) .quiet t
  /-- The reader gives up all requests in flight. -/
  | givesUp {t : Session} : s.phase = .cancelling → t.connection = s.connection.cancelAll →
    t.works = s.works → t.phase = .releasing → Effect s (.step .reader) .quiet t
  /-- The reader turns down a body that is no message. -/
  | rejects {answer : ResponseMessage} {t : Session} :
    t.connection = (s.connection.send .reader (.response answer)).2 →
    t.works = s.works → s.Progress t.phase →
    Effect s (.step .reader) (s.connection.send .reader (.response answer)).1 t
  /-- The reader takes a message. -/
  | takes {m : RpcMessage} {t : Session} : s.phase = .reading →
    t.connection = s.connection.takeIn s.taken m →
    t.works.Perm ((s.workOn? m).toList ++ s.works) → s.Progress t.phase →
    Effect s (.step .reader) (.taken s.taken m) t
  /-- Work of the worker or of a job takes a step. -/
  | advances {party : Party} {event : Event} {w w' : Work} {rest : List Work} {t : Session} :
    party ≠ .writer → s.works.Perm (w :: rest) →
    w.advance s.connection = some (event, w', t.connection) → t.works.Perm (w'.left ++ rest) →
    s.Progress t.phase → Effect s (.step party) event t
  /-- The writer writes a message. -/
  | writes {message : RpcMessage} {rest : List RpcMessage} {t : Session} :
    s.connection.writing = true → s.connection.outgoing = message :: rest →
    t.connection = { s.connection with outgoing := rest } → t.works = s.works →
    s.Progress t.phase → Effect s (.step .writer) (.wrote message) t
  /-- The writer ends: a message fails to be written, or it is told to stop and nothing is left. -/
  | ends {t : Session} : s.connection.writing = true →
    (s.connection.outgoing ≠ [] ∧ s.hungUp = true) ∨
      (s.connection.outgoing = [] ∧ s.phase = .stopping) →
    t.connection = { s.connection with writing := false, outgoing := [] } → t.works = s.works →
    s.Progress t.phase → Effect s (.step .writer) .quiet t

variable {s t : Session} {event : Event}

/-- A message that is taken reaches the connection, and the work in hand unless it is a response. -/
private theorem effect_of_take {m : RpcMessage} {input : List UInt8} (hp : s.phase = .reading) :
    s.Effect (.step .reader) (.taken s.taken m) ({ s with input }.take m) := by
  cases m with
  | response r => exact .takes hp rfl (.refl _) .stays
  | request q =>
    -- A `shutdown` waits in the queue; any other request becomes a job.
    simp only [take, takeRequest]
    split
    · exact .takes hp rfl (perm_works_queue s _) .stays
    · exact .takes hp rfl (perm_works_jobs_append s _) .stays
  | notification q =>
    simp only [take, takeNotification]
    split
    · exact .takes hp rfl (perm_works_queue s _) (.stops hp)
    · exact .takes hp rfl (perm_works_queue s _) .stays

/-- A step of the reader takes or turns down what it reads, or winds the session up. -/
private theorem effect_of_readerStep (h : s.ReaderStep event t) :
    s.Effect (.step .reader) event t := by
  cases h with
  | ends hp _ | breaks hp _ => exact .outward rfl rfl rfl (.stops hp)
  | rejects _ _ _ => exact .rejects rfl rfl .stays
  | takes hp _ _ => exact effect_of_take hp
  | closes hp => exact .winds rfl rfl (.closes hp)
  | cancels hp => exact .givesUp hp rfl rfl rfl
  | clears hp => exact .winds rfl rfl (.clears hp)
  | drains hp hq hc => exact .outward rfl rfl rfl (.drains hp hq hc)
  | returns hp hw => exact .outward rfl rfl rfl (.returns hp hw)

/-- A step of the worker moves work on, or from hand to hand. -/
private theorem effect_of_workerStep (h : s.WorkerStep event t) :
    s.Effect (.step .worker) event t := by
  cases h with
  | advances hw ha =>
    obtain ⟨hb, ht⟩ := perm_works_current hw _ _
    exact .advances (by simp) hb ha ht .stays
  | picksUp hc hq => exact .outward rfl rfl (by simp [works, hc, hq]) .stays

/-- A step of a job moves its work on. -/
private theorem effect_of_jobStep {number : Nat} (hd : s.numbers.Nodup)
    (h : s.JobStep number event t) : s.Effect (.step (.job number)) event t := by
  obtain ⟨hw, ha⟩ := h
  have hn := (Work.passage_of_advance ha).1.number_eq.1
  obtain ⟨rest, hb, ht⟩ := perm_works_jobs (List.mem_of_find?_eq_some hw) hn hd _
  exact .advances (by simp) hb ha ht .stays

/-- Every move has one of these effects. -/
theorem effect_of_move {m : Move} (hd : s.numbers.Nodup) (h : s.move m = some (event, t)) :
    s.Effect m event t := by
  cases m with
  -- The client reaches the input and the output, and nothing else of the session.
  | receive _ | endInput | hangUp =>
    simp only [move, Option.some.injEq, Prod.mk.injEq] at h
    obtain ⟨rfl, rfl⟩ := h
    exact .outward rfl rfl rfl .stays
  | step party =>
    cases party with
    | reader => exact effect_of_readerStep (readerStep_of_step h)
    | worker => exact effect_of_workerStep (workerStep_of_step h)
    | job number => exact effect_of_jobStep hd (jobStep_of_step h)
    | writer =>
      cases writerStep_of_step h with
      | writes hw ho _ => exact .writes hw ho rfl rfl .stays
      | ends hw ho => exact .ends hw ho rfl rfl .stays

/-- Either some work takes a step, or nothing happens on account of any message, and only new work
is added. -/
theorem Effect.works_cases {m : Move} (h : s.Effect m event t) :
    (∃ w w' rest, s.works.Perm (w :: rest) ∧
      w.advance s.connection = some (event, w', t.connection) ∧
      t.works.Perm (w'.left ++ rest)) ∨
    event.actor? = none ∧ ∀ v ∈ t.works, v ∈ s.works ∨ v.number = s.taken := by
  cases h with
  | outward ho _ hw _ =>
    refine .inr ⟨?_, fun v hv => .inl (hw ▸ hv)⟩
    -- Such an event is none of those that somebody brings about.
    cases event with
    | received _ | stopped _ | quiet => rfl
    | _ => simp [Event.isOutward] at ho
  | winds _ hw _ | givesUp _ _ hw _ | writes _ _ _ hw _ | ends _ _ _ hw _ =>
    exact .inr ⟨rfl, fun v hv => .inl (hw ▸ hv)⟩
  | rejects _ hw _ => exact .inr ⟨Work.actor_send _ _, fun v hv => .inl (hw ▸ hv)⟩
  | takes _ _ hw _ =>
    refine .inr ⟨rfl, fun v hv => ?_⟩
    rcases List.mem_append.1 (hw.mem_iff.1 hv) with hv | hv
    · exact .inr (workOn?_eq_some (Option.mem_toList.1 hv)).1
    · exact .inl hv
  | advances _ hb ha hw _ => exact .inl ⟨_, _, _, hb, ha, hw⟩

/-- Numbers differ, so the work that takes a step is the only one with its number. -/
theorem ne_of_mem_rest {w : Work} {rest : List Work} (hd : s.numbers.Nodup)
    (hb : s.works.Perm (w :: rest)) {v : Work} (hv : v ∈ rest) : v.number ≠ w.number := by
  intro he
  rw [numbers, (hb.map _).nodup_iff, List.map_cons, List.nodup_cons] at hd
  exact hd.1 (List.mem_map.2 ⟨v, hv, he⟩)

end Session

end LanguageServer
