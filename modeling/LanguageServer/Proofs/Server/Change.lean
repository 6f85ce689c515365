import LanguageServer.Proofs.Server.Calls
import LanguageServer.Proofs.Server.Step
import LanguageServer.Proofs.Server.Story

/-!
# What a move of a session can do

* `Session.Intake`: what a move can do to the bytes that wait.  It adds to them, or takes a frame
  off them, or does nothing.
* `Session.Halt`: when reading stops.
* `Session.Winding`: what a move can do to the calls, once reading has stopped.
* `Session.Change`: what a move can do to the work in hand.  It adds the work on a message that is
  taken, lets the worker pick up what is next in its queue, takes a step of the work of the worker
  or of a job, or does nothing.

`Session.change_of_move` says that these are all moves, so no later proof opens a step.
-/

namespace LanguageServer

namespace Event

/-- The message that is taken in an event, with its number. -/
def arrival? : Event → Option (Nat × RpcMessage)
  | .taken number m => some (number, m)
  | _ => none

/-- The messages that are taken, in order. -/
def arrivals (events : List Event) : List (Nat × RpcMessage) := events.filterMap arrival?

/-- One more event brings at most one more message. -/
theorem arrivals_append (events : List Event) (event : Event) :
    arrivals (events ++ [event]) = arrivals events ++ event.arrival?.toList := by
  cases h : event.arrival? <;> simp [arrivals, h]

/-- The bytes that come in an event. -/
def bytes? : Event → Option (List UInt8)
  | .received bytes => some bytes
  | _ => none

/-- What the reader makes of a frame in an event: a message, or the answer that says why it is
none. -/
def reading? : Event → Option (Except ResponseMessage RpcMessage)
  | .taken _ m => some (.ok m)
  | .queued .reader (.response answer) => some (.error answer)
  | .dropped .reader (.response answer) => some (.error answer)
  | _ => none

/-- Whether an event is one of the client, of the writer, or of the reader apart from messages. -/
def isAside : Event → Bool
  | .received _ => true
  | .stopped _ => true
  | .queued .reader _ => true
  | .dropped .reader _ => true
  | .wrote _ => true
  | .quiet => true
  | _ => false

/-- Nothing happens to a message in an event that is aside from all of them. -/
theorem deed?_of_isAside {event : Event} (h : event.isAside = true) : event.deed? = none := by
  cases event with
  | queued sender m | dropped sender m => cases sender <;> simp_all [isAside, deed?]
  | _ => simp_all [isAside, deed?]

/-- No message is taken in an event that is aside from all of them. -/
theorem arrival?_of_isAside {event : Event} (h : event.isAside = true) : event.arrival? = none := by
  cases event <;> simp_all [isAside, arrival?]

end Event

/-- What a callback gets to know of a message; a response goes to no callback. -/
def RpcMessage.context? (timeout : Option Nat) : RpcMessage → Option Context
  | .request m => some (m.context timeout)
  | .notification m => some m.context
  | .response _ => none

/-- Whether a message is handled in its turn: a notification, or `shutdown`. -/
def Context.isOrdered (x : Context) : Bool := x.id.isNone || x.method == Method.shutdown

/-- Whether nothing is left for the worker to do. -/
def Phase.isWoundUp : Phase → Bool
  | .stopping | .returned => true
  | _ => false

/-- How far the closing of the connection is in a phase. -/
def Phase.toClosing : Phase → Closing
  | .reading | .closing => .idle
  | .cancelling => .closed
  | .releasing => .cancelled
  | .draining | .stopping | .returned => .finished

/-- A step of the work on a message has nothing to do with the input. -/
theorem Work.Passage.input_eq {w w' : Work} {event : Event} (h : w.Passage event w') :
    event.arrival? = none ∧ event.bytes? = none ∧ event.reading? = none := by
  cases h with
  | begins _ _ | settles _ => exact ⟨rfl, rfl, rfl⟩
  -- What a callback sends is no reading of the reader, whoever else may send.
  | goesOn _ _ he =>
    cases event with
    | taken _ _ | received _ => simp [Event.isOfCallback] at he
    | queued sender m | dropped sender m =>
      cases sender with
      | reader => simp [Event.isOfCallback] at he
      | answer _ | callback _ => exact ⟨rfl, rfl, rfl⟩
    | _ => exact ⟨rfl, rfl, rfl⟩
  | ends _ hd | answers _ hd =>
    cases event with
    | taken _ _ | received _ => simp [Event.deed?] at hd
    | queued sender m | dropped sender m =>
      cases sender with
      | reader => simp [Event.deed?] at hd
      | answer _ | callback _ => exact ⟨rfl, rfl, rfl⟩
    | _ => exact ⟨rfl, rfl, rfl⟩

/-- A cancellation leaves the writer and the calls alone. -/
theorem Connection.cancel_eq (c : Connection) (id : Id) :
    (c.cancel id).writing = c.writing ∧ (c.cancel id).calls = c.calls := by
  simp only [cancel]
  split <;> exact ⟨rfl, rfl⟩

/-- Sending a message touches no calls. -/
theorem Connection.calls_send (c : Connection) (sender : Sender) (m : RpcMessage) :
    (c.send sender m).2.calls = c.calls := by
  simp only [send]
  split <;> rfl

namespace Session

/-- What a move of a session can do to the bytes that wait. -/
inductive Intake (s : Session) : Event → List UInt8 → Prop
  | nothing {event : Event} : event.bytes? = none → event.reading? = none → Intake s event s.input
  | receives {bytes : List UInt8} : Intake s (.received bytes) (s.input ++ bytes)
  | reads {event : Event} {frame : Frame} {rest : List UInt8} :
    s.phase = .reading →
    Frame.read s.maxMessageSize (!s.inputEnded) s.input = .frame frame rest →
    event.bytes? = none → event.reading? = some (RpcMessage.ofBody frame.content) →
    Intake s event rest

/-- What a move of a session has to do with the end of reading: nothing, or it takes `exit`, or
finds the end of the stream or something that is no frame. -/
inductive Halt (s : Session) : Event → Phase → Prop
  | goesOn {event : Event} {phase : Phase} : (phase = .reading ↔ s.phase = .reading) →
    Halt s event phase
  | exits {number : Nat} {m : NotificationMessage} : m.method = Method.exit →
    Halt s (.taken number (.notification m)) .closing
  | ends : Frame.read s.maxMessageSize (!s.inputEnded) s.input = .finished →
    Halt s (.stopped (.ok ())) .closing
  | breaks {e : LspError} : Frame.read s.maxMessageSize (!s.inputEnded) s.input = .broken e →
    Halt s (.stopped (.error e)) .closing

/-- What a move of a session can do to the calls, apart from those that make and take them: nothing,
or a step of the closing. -/
inductive Winding (s : Session) : Connection → Phase → Prop
  | nothing {connection : Connection} {phase : Phase} :
    connection.calls = s.connection.calls → phase.toClosing = s.phase.toClosing →
    Winding s connection phase
  | closes : s.phase = .closing →
    Winding s { s.connection with calls := s.connection.calls.close } .cancelling
  | cancels : s.phase = .cancelling → Winding s s.connection.cancelAll .releasing
  | clears : s.phase = .releasing →
    Winding s { s.connection with calls := s.connection.calls.clear } .draining

/-- What a move of a session can do to the work in hand. -/
inductive Change (s : Session) : Event → Session → Prop
  /-- Nothing: the client, the writer, or the reader apart from messages.  The writer does not come
  back once it has ended, and the worker is done before the session is wound up. -/
  | aside {event : Event} {connection : Connection} {input : List UInt8} {inputEnded : Bool}
      {phase : Phase} {outcome : Outcome Unit} {hungUp : Bool} :
    s.Intake event input → event.isAside = true → s.Halt event phase →
    s.Winding connection phase →
    (connection.writing = true → s.connection.writing = true ∧ event.isDropped = false) →
    (phase.isWoundUp = true →
      s.phase.isWoundUp = true ∨ s.queue = [] ∧ s.current = none) →
    Change s event { s with connection, input, inputEnded, phase, outcome, hungUp }
  /-- The reader takes a response. -/
  | resolves {r : ResponseMessage} {input : List UInt8} :
    s.Intake (.taken s.taken (.response r)) input →
    Change s (.taken s.taken (.response r))
      { s with
        connection := { s.connection with calls := s.connection.calls.complete r }
        input
        taken := s.taken + 1 }
  /-- The reader takes a message that is to be handled in its turn. -/
  | queues {m : RpcMessage} {x : Context} {connection : Connection} {input : List UInt8}
      {phase : Phase} {outcome : Outcome Unit} :
    s.Intake (.taken s.taken m) input → s.Halt (.taken s.taken m) phase →
    connection.writing = s.connection.writing →
    connection.calls = s.connection.calls → phase.toClosing = s.phase.toClosing →
    m.context? s.requestTimeout = some x → x.isOrdered = true → phase.isWoundUp = false →
    Change s (.taken s.taken m)
      { s with
        connection, input, phase, outcome
        taken := s.taken + 1
        queue := s.queue ++ [⟨s.taken, x, .arrived⟩] }
  /-- The reader takes a message that is handled at once. -/
  | starts {m : RpcMessage} {x : Context} {connection : Connection} {input : List UInt8} :
    s.Intake (.taken s.taken m) input → connection.writing = s.connection.writing →
    connection.calls = s.connection.calls →
    m.context? s.requestTimeout = some x → x.isOrdered = false →
    Change s (.taken s.taken m)
      { s with connection, input, taken := s.taken + 1, jobs := s.jobs ++ [⟨s.taken, x, .arrived⟩] }
  /-- The worker picks up what is next. -/
  | picksUp {w : Work} {rest : List Work} : s.current = none → s.queue = w :: rest →
    Change s .quiet { s with queue := rest, current := some w }
  /-- The worker takes a step. -/
  | workerSteps {event : Event} {w w' : Work} {connection : Connection} : s.current = some w →
    w.advance s.connection = some (event, w', connection) →
    Change s event { s with connection, current := if w'.isOver then none else some w' }
  /-- A job takes a step. -/
  | jobSteps {event : Event} {w w' : Work} {connection : Connection} : w ∈ s.jobs →
    w.advance s.connection = some (event, w', connection) →
    Change s event { s with connection, jobs := putJob w' s.jobs }

variable {s t : Session} {event : Event}

/-- A message that is taken becomes work in hand, unless it is a response. -/
private theorem change_of_take {m : RpcMessage} {input : List UInt8} (hp : s.phase = .reading)
    (hi : s.Intake (.taken s.taken m) input) :
    s.Change (.taken s.taken m) ({ s with input }.take m) := by
  cases m with
  | response r => exact .resolves hi
  | request q =>
    -- Of all requests only the shutdown waits for its turn.
    by_cases hm : q.method = Method.shutdown
    · simp only [take, takeRequest, if_pos hm]
      refine .queues hi (.goesOn .rfl) rfl rfl rfl rfl ?_ (by simp [hp, Phase.isWoundUp])
      simp [Context.isOrdered, RequestMessage.context, hm]
    · simp only [take, takeRequest, if_neg hm]
      refine .starts hi rfl rfl rfl ?_
      simp [Context.isOrdered, RequestMessage.context, hm]
  | notification q =>
    -- An exit stops the reader; and a cancellation touches tokens only, in both cases.
    simp only [take, takeNotification]
    split
    · rename_i he
      refine .queues hi (.exits he) ?_ ?_ (by rw [hp]; rfl) rfl rfl rfl <;> split
      · exact (s.connection.cancel_eq _).1
      · rfl
      · exact (s.connection.cancel_eq _).2
      · rfl
    · refine .queues hi (.goesOn .rfl) ?_ ?_ rfl rfl rfl (by simp [hp, Phase.isWoundUp]) <;> split
      · exact (s.connection.cancel_eq _).1
      · rfl
      · exact (s.connection.cancel_eq _).2
      · rfl

/-- A body that is turned down is read, and something is queued unless the writer has ended. -/
private theorem change_of_rejects {frame : Frame} {rest : List UInt8} {answer : ResponseMessage}
    (hp : s.phase = .reading)
    (hf : Frame.read s.maxMessageSize (!s.inputEnded) s.input = .frame frame rest)
    (ha : RpcMessage.ofBody frame.content = .error answer) :
    s.Change (s.connection.send .reader (.response answer)).1
      { s with
        input := rest
        connection := (s.connection.send .reader (.response answer)).2 } := by
  have hq := s.connection.queues_send .reader (.response answer)
  have hc := s.connection.calls_send .reader (.response answer)
  rcases Work.event_send_eq s.connection .reader (.response answer) with he | he <;>
    rw [he] at hq ⊢
  · have hi : s.Intake (.queued .reader (.response answer)) rest :=
      .reads hp hf rfl (congrArg some ha.symm)
    exact .aside hi rfl (.goesOn .rfl) (.nothing hc rfl)
      (fun hw => ⟨hq.writing_eq ▸ hw, rfl⟩) .inl
  · have hi : s.Intake (.dropped .reader (.response answer)) rest :=
      .reads hp hf rfl (congrArg some ha.symm)
    -- Nothing is dropped while the writer is there.
    have hd : (s.connection.send .reader (.response answer)).2.writing = false := by
      rw [hq.writing_eq, hq.writing_of_dropped rfl]
    exact .aside hi rfl (.goesOn .rfl) (.nothing hc rfl) (fun hw => by simp [hd] at hw) .inl

/-- A step of the reader changes the work in hand only if it takes a message. -/
private theorem change_of_readerStep (h : s.ReaderStep event t) : s.Change event t := by
  cases h with
  | ends hp hf =>
    have hw : s.Winding s.connection .closing := .nothing rfl (by rw [hp]; rfl)
    exact .aside (.nothing rfl rfl) rfl (.ends hf) hw (fun hw => ⟨hw, rfl⟩) nofun
  | breaks hp hf =>
    have hw : s.Winding s.connection .closing := .nothing rfl (by rw [hp]; rfl)
    exact .aside (.nothing rfl rfl) rfl (.breaks hf) hw (fun hw => ⟨hw, rfl⟩) nofun
  | rejects hp hf ha => exact change_of_rejects hp hf ha
  | takes hp hf hm => exact change_of_take hp (.reads hp hf rfl (congrArg some hm.symm))
  | closes hp =>
    have hh : s.Halt .quiet .cancelling := .goesOn (by simp [hp])
    exact .aside (.nothing rfl rfl) rfl hh (.closes hp) (fun hw => ⟨hw, rfl⟩) nofun
  | cancels hp =>
    have hh : s.Halt .quiet .releasing := .goesOn (by simp [hp])
    exact .aside (.nothing rfl rfl) rfl hh (.cancels hp) (fun hw => ⟨hw, rfl⟩) nofun
  | clears hp =>
    have hh : s.Halt .quiet .draining := .goesOn (by simp [hp])
    exact .aside (.nothing rfl rfl) rfl hh (.clears hp) (fun hw => ⟨hw, rfl⟩) nofun
  | drains hp hq hc =>
    -- Only this step depends on the worker, which is done by then.
    have hw : s.Winding s.connection .stopping := .nothing rfl (by rw [hp]; rfl)
    have hh : s.Halt .quiet .stopping := .goesOn (by simp [hp])
    exact .aside (.nothing rfl rfl) rfl hh hw (fun hw => ⟨hw, rfl⟩) fun _ => .inr ⟨hq, hc⟩
  | returns hp _ =>
    have hw : s.Winding s.connection .returned := .nothing rfl (by rw [hp]; rfl)
    have hd : s.phase.isWoundUp = true := by rw [hp]; rfl
    have hh : s.Halt .quiet .returned := .goesOn (by simp [hp])
    exact .aside (.nothing rfl rfl) rfl hh hw (fun hw => ⟨hw, rfl⟩) fun _ => .inl hd

/-- A step of the writer leaves the work in hand alone. -/
private theorem change_of_writerStep (h : s.WriterStep event t) : s.Change event t := by
  cases h with
  | writes hw _ _ =>
    exact .aside (.nothing rfl rfl) rfl (.goesOn .rfl) (.nothing rfl rfl) (fun _ => ⟨hw, rfl⟩) .inl
  | ends _ _ => exact .aside (.nothing rfl rfl) rfl (.goesOn .rfl) (.nothing rfl rfl) nofun .inl

/-- Every move is a change. -/
theorem change_of_move {m : Move} (h : s.move m = some (event, t)) : s.Change event t := by
  cases m with
  | receive bytes =>
    simp only [move, Option.some.injEq, Prod.mk.injEq] at h
    obtain ⟨rfl, rfl⟩ := h
    -- Bytes that come in are seen by the reader only.
    exact .aside .receives rfl (.goesOn .rfl) (.nothing rfl rfl) (fun hw => ⟨hw, rfl⟩) .inl
  | endInput | hangUp =>
    simp only [move, Option.some.injEq, Prod.mk.injEq] at h
    obtain ⟨rfl, rfl⟩ := h
    exact .aside (.nothing rfl rfl) rfl (.goesOn .rfl) (.nothing rfl rfl) (fun hw => ⟨hw, rfl⟩) .inl
  | step party =>
    cases party with
    | reader => exact change_of_readerStep (readerStep_of_step h)
    | worker =>
      cases workerStep_of_step h with
      | advances hw ha => exact .workerSteps hw ha
      | picksUp hc hq => exact .picksUp hc hq
    | job number =>
      obtain ⟨hw, ha⟩ := jobStep_of_step h
      exact .jobSteps (List.mem_of_find?_eq_some hw) ha
    | writer => exact change_of_writerStep (writerStep_of_step h)

end Session

end LanguageServer
