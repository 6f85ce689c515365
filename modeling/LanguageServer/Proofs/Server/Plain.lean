import LanguageServer.Proofs.Frame.RoundTrip
import LanguageServer.Proofs.Handler.CallFree
import LanguageServer.Proofs.Handler.Dispatch
import LanguageServer.Proofs.Server.Intake

/-!
# One message after the other

`Server.plain` takes the frames of a stream in order and handles each message before it looks at the
next one: a body that is no message is answered with an error, a request with what its handling
comes to, and nothing else is answered.  It stops at the first `exit` that is a notification.

`Work.completion` is what the work on a message still does to the handler and to its client when
nothing else goes on.  `Work.forward_of_advance` says that a step of the work takes part of that, as
long as no callback calls the client.
-/

namespace LanguageServer

/-! ## What shows of a session -/

/-- Whether a message ends the session. -/
def RpcMessage.isExit : RpcMessage → Bool
  | .notification m => m.method == Method.exit
  | _ => false

namespace Event

/-- The message whose callback is started in an event. -/
def invoked? : Event → Option Nat
  | .invoked number => some number
  | _ => none

/-- The messages whose callbacks were started, in order. -/
def invocations (events : List Event) : List Nat := events.filterMap invoked?

end Event

/-- What shows of the handling of messages. -/
structure Tally where
  /-- The messages for the client. -/
  sent : List RpcMessage := []
  /-- The notes that callbacks have left. -/
  notes : List Json := []
  /-- The messages whose callbacks were started; messages that are taken count from 0. -/
  invoked : List Nat := []
  /-- How many messages have been taken. -/
  taken : Nat := 0
  /-- Whether one of them was `exit`. -/
  exited : Bool := false

namespace Tally

def send (m : RpcMessage) (t : Tally) : Tally := { t with sent := t.sent ++ [m] }

def leave (entry : Json) (t : Tally) : Tally := { t with notes := t.notes ++ [entry] }

def invoke (number : Nat) (t : Tally) : Tally := { t with invoked := t.invoked ++ [number] }

def take (m : RpcMessage) (t : Tally) : Tally :=
  { t with taken := t.taken + 1, exited := t.exited || m.isExit }

/-- An event is added. -/
def record (t : Tally) : Event → Tally
  | .queued _ m => t.send m
  | .noted _ entry => t.leave entry
  | .invoked number => t.invoke number
  | .taken _ m => t.take m
  | _ => t

/-- What shows in events. -/
def of (events : List Event) : Tally where
  sent := events.filterMap Event.queued?
  notes := Event.notes events
  invoked := Event.invocations events
  taken := (Event.arrivals events).length
  exited := (Event.arrivals events).any (·.2.isExit)

/-- A tally of events goes on with the next event. -/
theorem of_append (events : List Event) (event : Event) :
    of (events ++ [event]) = (of events).record event := by
  cases event <;>
    simp [of, record, send, leave, invoke, take, Event.notes, Event.invocations, Event.arrivals,
      Event.queued?, Event.invoked?, Event.arrival?]

/-- What a tally counts as sent is what is queued. -/
theorem record_sent (t : Tally) (event : Event) :
    (t.record event).sent = t.sent ++ event.queued?.toList := by
  cases event <;> simp [record, send, leave, invoke, take, Event.queued?]

/-- What is no arrival leaves the messages that were taken. -/
theorem record_of_arrival?_eq_none (t : Tally) {event : Event} (h : event.arrival? = none) :
    (t.record event).taken = t.taken ∧ (t.record event).exited = t.exited := by
  cases event with
  | taken number m => simp [Event.arrival?] at h
  | _ => exact ⟨rfl, rfl⟩

/-- A client that receives everything and answers nothing. -/
def hooks : Hooks Tally where
  notify method params t := (.ok (), t.send (.ofNotification method params.asParams))
  call _ _ t := (.error Connection.writerGone, t)
  note := leave

end Tally

/-! ## The plain order -/

/-- The answer to a message that was handled, if it is a request. -/
def Handled.answer? (x : Context) : Handled → Option ResponseMessage
  | .result r => x.id.map fun id => r.response id x.method
  | .panicked _ => x.id.map fun id => Work.panicAnswer x.method id
  | .stuck => none

/-- Whether a callback waits for something that does not come. -/
def Handled.isStuck : Handled → Bool
  | .stuck => true
  | _ => false

/-- A handler with what shows of its handling of messages one after the other. -/
structure Plain where
  handler : Handler
  tally : Tally := {}
  /-- Whether a callback does not come to its end. -/
  stuck : Bool := false

namespace Plain

/-- Whether no more messages are taken. -/
def isOver (p : Plain) : Bool := p.tally.exited || p.stuck

/-- Answer a message that was handled, if it wants an answer. -/
def answer (x : Context) : Handled × Handler × Tally → Plain
  | (handled, handler, tally) =>
    { handler
      tally :=
        match handled.answer? x with
        | some answer => tally.send (.response answer)
        | none => tally
      stuck := handled.isStuck }

/-- Handle a message and answer it. -/
def serve (number : Nat) (x : Context) (p : Plain) : Plain :=
  let tally :=
    if (p.handler.invocation? x false).isSome then p.tally.invoke number else p.tally
  answer x (p.handler.handle Tally.hooks x false tally)

/-- Take what a body holds: a message, or an answer that says why it holds none. -/
def take (p : Plain) (reading : Except ResponseMessage RpcMessage) : Plain :=
  if p.isOver then p
  else
    match reading with
    | .error answer => { p with tally := p.tally.send (.response answer) }
    | .ok m =>
      match m.context? none with
      | some x => { p with tally := p.tally.take m }.serve p.tally.taken x
      -- A response is left alone.
      | none => { p with tally := p.tally.take m }

/-- A server that is done takes no more messages. -/
theorem take_of_isOver {p : Plain} (h : p.isOver = true)
    (reading : Except ResponseMessage RpcMessage) : p.take reading = p :=
  if_pos h

/-- A body that holds no message is answered. -/
theorem take_error {p : Plain} (h : p.isOver = false) (answer : ResponseMessage) :
    p.take (.error answer) = { p with tally := p.tally.send (.response answer) } := by
  simp [take, h]

/-- A request or a notification is handled. -/
theorem take_of_context {p : Plain} {m : RpcMessage} {x : Context} (h : p.isOver = false)
    (hx : m.context? none = some x) :
    p.take (.ok m) = { p with tally := p.tally.take m }.serve p.tally.taken x := by
  simp [take, h, hx]

/-- A response is left alone. -/
theorem take_response {p : Plain} (h : p.isOver = false) (r : ResponseMessage) :
    p.take (.ok (.response r)) = { p with tally := p.tally.take (.response r) } := by
  simp [take, h, RpcMessage.context?]

/-- Take what one body after the other holds. -/
def takeAll (p : Plain) (readings : List (Except ResponseMessage RpcMessage)) : Plain :=
  readings.foldl take p

/-- A server that is done takes none of them. -/
theorem takeAll_of_isOver {p : Plain} (h : p.isOver = true)
    (readings : List (Except ResponseMessage RpcMessage)) : p.takeAll readings = p := by
  induction readings with
  | nil => rfl
  | cons reading rest ih =>
    rw [takeAll, List.foldl_cons, take_of_isOver h]
    exact ih

/-- Messages can be taken at two times. -/
theorem takeAll_append (p : Plain) (readings more : List (Except ResponseMessage RpcMessage)) :
    p.takeAll (readings ++ more) = (p.takeAll readings).takeAll more :=
  List.foldl_append

/-- Nothing changes any more once it is over. -/
theorem takeAll_of_isPrefix {p : Plain} {readings more : List (Except ResponseMessage RpcMessage)}
    (hp : readings <+: more) (h : (p.takeAll readings).isOver = true) :
    p.takeAll more = p.takeAll readings := by
  obtain ⟨rest, rfl⟩ := hp
  rw [takeAll_append, takeAll_of_isOver h]

end Plain

/-- What the bodies of frames hold. -/
def Frame.readings (frames : List Frame) : List (Except ResponseMessage RpcMessage) :=
  frames.map (RpcMessage.ofBody ·.content)

/-- The frames of a stream, taken one after the other. -/
def Server.plain (server : Server) (stream : List UInt8) : Plain :=
  Plain.takeAll { handler := server.handler }
    (Frame.readings (Frame.readAll server.maxMessageSize stream).1)

/-- The frames of a stream of frames are these frames. -/
theorem Server.plain_stream {server : Server} {frames : List Frame}
    (hw : ∀ f ∈ frames, f.IsWritable server.maxMessageSize) :
    server.plain (Frame.stream frames) =
      Plain.takeAll { handler := server.handler } (Frame.readings frames) := by
  rw [plain, (Frame.reads_stream hw).readAll_eq]

/-- What a session ends with: an error, unless the stream ends with a frame, or there is an `exit`.
It does not end if its reader panics. -/
def Server.ending (server : Server) (stream : List UInt8) : Option (Outcome Unit) :=
  if (server.plain stream).tally.exited then some (.ok ())
  else
    match Frame.stop server.maxMessageSize stream with
    | .broken e => some (.error e)
    | .overflow => none
    | _ => some (.ok ())

/-- A stream of frames makes no reader panic. -/
theorem Server.ending_stream {server : Server} {frames : List Frame}
    (hw : ∀ f ∈ frames, f.IsWritable server.maxMessageSize) :
    server.ending (Frame.stream frames) = some (.ok ()) := by
  simp only [ending, (Frame.reads_stream hw).stop_eq, ite_self]

/-- The answer to a body that holds no message is an error.  The body is not JSON, or the answer has
the identifier of the body, if there is one. -/
theorem RpcMessage.cases_of_ofBody {body : String} {answer : ResponseMessage}
    (h : RpcMessage.ofBody body = .error answer) :
    answer.result = none ∧ ∃ error, answer.error = some error ∧
      ((∃ fault, Json.parse body = .error fault) ∧ answer.id = none ∧ error.code = -32700 ∨
        ∃ j, Json.parse body = .ok j ∧
          answer.id = ((j.member? "id").bind fun id => (IntOrString.codec.ofJson id).toOption) ∧
          error.code = -32600) := by
  unfold RpcMessage.ofBody at h
  split at h
  · -- The body is no document.
    rename_i fault hparse
    obtain rfl := Except.error.inj h
    exact ⟨rfl, _, rfl, .inl ⟨⟨fault, hparse⟩, rfl, rfl⟩⟩
  · -- It is a document, but no message.
    rename_i j hparse
    cases hj : RpcMessage.ofJson j with
    | ok m =>
      rw [hj] at h
      injection h
    | error e =>
      rw [hj] at h
      obtain rfl := Except.error.inj h
      exact ⟨rfl, _, rfl, .inr ⟨j, hparse, rfl, rfl⟩⟩

/-- What comes after `exit` makes no difference. -/
theorem Server.plain_append {server : Server} {stream : List UInt8}
    (h : (server.plain stream).isOver = true) (more : List UInt8) :
    server.plain (stream ++ more) = server.plain stream :=
  Plain.takeAll_of_isPrefix ((Frame.readAll_append _ _ _).map _) h

/-! ## What is left of the work on a message -/

/-- How many acts there are when the client receives everything, up to the end, a request to the
client or a wait for a cancellation. -/
def Activity.length : Activity → Handler → Nat
  | .done _, _ | .panic _, _ | .call .., _ | .awaitCancelled _, _ => 0
  | .note _ next, h => next.length h + 1
  | .notify _ _ next, h => (next (.ok ())).length h + 1
  | .askCancelled next, h => (next false).length h + 1
  | .look next, h => (next h.outlook).length h + 1
  | .setTrace level next, h => next.length { h with trace := level } + 1
  | .register method start next, h => next.length (h.register method ⟨start⟩) + 1
  | .unregister method next, h =>
    (next (h.isRegistered method)).length (h.unregister method) + 1

namespace Plain

/-- The result of a message is known. -/
def settle (x : Context) (r : DispatchResult) (p : Plain) : Plain :=
  answer x (.result r, p.handler.finish x.method r, p.tally)

/-- The callback for a message is under way. -/
def run (x : Context) (a : Activity) (p : Plain) : Plain :=
  answer x
    (Handler.conclude x.method (a.run Tally.hooks (x.isCancelled false) p.handler p.tally))

/-- There is an entry for a message. -/
def enter (number : Nat) (x : Context) (entry : Entry) (p : Plain) : Plain :=
  if x.isRefused false then p.settle x (.failure .requestCancelled)
  else
    match entry.start x with
    | .error e => p.settle x (.invalidParams (some e))
    | .ok a => { p with tally := p.tally.invoke number }.run x a

/-- To serve a message that is refused is to settle it. -/
theorem serve_of_refuse {p : Plain} {x : Context} {r : DispatchResult} (number : Nat)
    (h : p.handler.lookUp x.method = .refuse r) : p.serve number x = p.settle x r := by
  have hd : p.handler.decide x false = .refuse r := by simp only [Handler.decide, h]
  have hi : (p.handler.invocation? x false).isSome = false := by simp [Handler.invocation?, hd]
  simp [serve, hi, Handler.handle_of_refuse Tally.hooks hd, settle]

/-- To serve a message that has an entry is to enter it. -/
theorem serve_of_handle {p : Plain} {x : Context} {entry : Entry} (number : Nat)
    (h : p.handler.lookUp x.method = .handle entry) :
    p.serve number x = p.enter number x entry := by
  -- Without a token a message is refused only when its time is over.
  by_cases hr : x.isRefused false = true
  · have hd : p.handler.decide x false = .refuse (.failure .requestCancelled) := by
      simp only [Handler.decide, h, hr, if_true]
    have hi : (p.handler.invocation? x false).isSome = false := by simp [Handler.invocation?, hd]
    simp [serve, enter, hi, hr, Handler.handle_of_refuse Tally.hooks hd, settle]
  · have hd : p.handler.decide x false = .handle entry := by
      simp [Handler.decide, h, hr]
    cases he : entry.start x with
    | error e =>
      have hi : (p.handler.invocation? x false).isSome = false := by
        simp [Handler.invocation?, hd, he, Except.toOption]
      simp [serve, enter, hi, hr, he, Handler.handle_of_error Tally.hooks hd he, settle]
    | ok a =>
      have hi : (p.handler.invocation? x false).isSome = true := by
        simp [Handler.invocation?, hd, he, Except.toOption]
      simp [serve, enter, hi, hr, he, Handler.handle_of_ok Tally.hooks hd he, run]

end Plain

namespace Context

variable {x : Context} {token : Bool}

/-- What is not given up for any reason has not run out of time. -/
theorem isCancelled_false (h : x.isCancelled token = false) : x.isCancelled false = false := by
  simp only [isCancelled, Bool.or_eq_false_iff] at h ⊢
  exact ⟨trivial, h.2⟩

/-- A message is refused only because it is given up. -/
theorem isRefused_of_not_isCancelled (h : x.isCancelled token = false) :
    x.isRefused token = false := by
  rw [isRefused, h, Bool.and_false]

end Context

/-- How many acts an entry has in store for a message. -/
def Entry.length (entry : Entry) (x : Context) (h : Handler) : Nat :=
  match entry.start x with
  | .ok a => a.length h
  | .error _ => 0

namespace Work

/-- What the work still comes to when nothing else goes on. -/
def completion (w : Work) (p : Plain) : Plain :=
  match w.stage with
  | .arrived => p.serve w.number w.context
  | .chosen entry => p.enter w.number w.context entry
  | .acting a => p.run w.context a
  | .decided r => p.settle w.context r
  | .handled answer =>
    if w.context.id.isSome then { p with tally := p.tally.send (.response answer) } else p
  | .settled answer => { p with tally := p.tally.send (.response answer) }
  | .calling .. | .finished => p

/-- The callback does not call the client, now or later. -/
def IsCallFree (w : Work) : Prop :=
  match w.stage with
  | .chosen entry => entry.IsCallFree
  | .acting a => a.IsCallFree
  | .calling .. => False
  | _ => True

/-- How many steps of the work are left at most when nothing else goes on. -/
def stepsLeft (w : Work) (h : Handler) : Nat :=
  match w.stage with
  | .arrived =>
    match h.lookUp w.context.method with
    | .handle entry => entry.length w.context h + 6
    | .refuse _ => 4
  | .chosen entry => entry.length w.context h + 5
  | .acting a => a.length h + 4
  | .calling .. => 4
  | .decided _ => 3
  | .handled _ => 2
  | .settled _ => 1
  | .finished => 0

/-- The work is on a request in flight with an identifier. -/
def Tracks (w : Work) (id : Id) : Prop :=
  w.context.id = some id ∧
    match w.stage with
    | .settled _ | .finished => False
    | _ => True

/-- Work that is on track is not over. -/
theorem Tracks.isOver_eq_false {w : Work} {id : Id} (h : w.Tracks id) : w.isOver = false := by
  obtain ⟨-, h⟩ := h
  cases hs : w.stage with
  | finished => simp [hs] at h
  | _ => simp [isOver, hs]

/-- A step of work that is alone takes a part of what is left. -/
structure Forward (w : Work) (c : Connection) (event : Event) (w' : Work) (c' : Connection) :
    Prop where
  completion_eq : ∀ t,
    w'.completion ⟨c'.handler, t.record event, false⟩ = w.completion ⟨c.handler, t, false⟩
  callFree : w'.IsCallFree ∧ c'.handler.IsCallFree
  stepsLeft_lt : w'.stepsLeft c'.handler < w.stepsLeft c.handler
  cancelled_eq : c'.cancelled = c.cancelled
  tracks : (∀ p ∈ c.inFlight, w.Tracks p.1) → ∀ p ∈ c'.inFlight, w'.Tracks p.1

variable {w w' : Work} {c c' : Connection} {event : Event}

/-- A step that leaves the connection alone and keeps the request in flight. -/
private theorem forward_enter {stage : Stage}
    (hrest : ∀ t, (w.enter stage).completion ⟨c.handler, t.record event, false⟩ =
      w.completion ⟨c.handler, t, false⟩)
    (hf : (w.enter stage).IsCallFree) (hh : c.handler.IsCallFree)
    (hl : (w.enter stage).stepsLeft c.handler < w.stepsLeft c.handler)
    (ht : ∀ id, w.context.id = some id → (w.enter stage).Tracks id) :
    w.Forward c event (w.enter stage) c where
  completion_eq := hrest
  callFree := ⟨hf, hh⟩
  stepsLeft_lt := hl
  cancelled_eq := rfl
  tracks hw p hp := ht p.1 (hw p hp).1

/-- The handling has come to its end, and a request is to be answered. -/
private theorem forward_answerWith (handled : Handled) {f : Id → ResponseMessage}
    (hrest : ∀ t,
      w.completion ⟨c.handler, t, false⟩ = Plain.answer w.context (handled, c'.handler, t))
    (ha : handled.answer? w.context = w.context.id.map f) (hs : handled.isStuck = false)
    (hr : ∀ t : Tally, t.record event = t) (hh : c'.handler.IsCallFree)
    (hl : 2 < w.stepsLeft c.handler) (hc : c'.cancelled = c.cancelled)
    (hi : c'.inFlight = c.inFlight) : w.Forward c event (w.answerWith f) c' := by
  cases hid : w.context.id with
  | none =>
    -- Nothing is to be answered, so that the work is over.
    have hw : w.answerWith f = w.enter .finished := by simp only [answerWith, hid]
    rw [hw]
    refine ⟨fun t => ?_, ⟨trivial, hh⟩, Nat.zero_lt_of_lt hl, hc, fun ht p hp => ?_⟩
    · rw [hrest, hr]
      simp [completion, enter, Plain.answer, ha, hid, hs]
    · rw [hi] at hp
      simpa [hid] using (ht p hp).1
  | some id =>
    -- The request stays in flight until its answer is settled.
    have hw : w.answerWith f = w.enter (.handled (f id)) := by simp only [answerWith, hid]
    rw [hw]
    refine ⟨fun t => ?_, ⟨trivial, hh⟩, hl, hc, fun ht p hp => ?_⟩
    · rw [hrest, hr]
      simp [completion, enter, Plain.answer, ha, hid, hs]
    · rw [hi] at hp
      exact ⟨(ht p hp).1, trivial⟩

/-- A step of a callback that goes on. -/
private theorem forward_acting {activity next : Activity} (hs : w.stage = .acting activity)
    (hrun : ∀ t, (next.run Tally.hooks (w.context.isCancelled false) c'.handler (t.record event)) =
      activity.run Tally.hooks (w.context.isCancelled false) c.handler t)
    (hf : next.IsCallFree) (hh : c'.handler.IsCallFree)
    (hl : next.length c'.handler < activity.length c.handler) (hc : c'.cancelled = c.cancelled)
    (hi : c'.inFlight = c.inFlight) : w.Forward c event (w.enter (.acting next)) c' := by
  refine ⟨fun t => ?completion_eq, ⟨hf, hh⟩, ?stepsLeft_lt, hc, fun ht p hp => ?tracks⟩
  case completion_eq =>
    simp only [completion, hs, enter, Plain.run]
    rw [hrun]
  case stepsLeft_lt =>
    simp only [stepsLeft, hs, enter]
    omega
  case tracks =>
    rw [hi] at hp
    exact ⟨(ht p hp).1, trivial⟩

/-- A step of a callback goes forward. -/
theorem forward_of_act {activity : Activity} (hs : w.stage = .acting activity)
    (h : w.act c activity = some (event, w', c')) (hw : c.writing = true)
    (hc : w.context.isCancelled (c.isCancelled w.number) = false) (hf : activity.IsCallFree)
    (hh : c.handler.IsCallFree) : w.Forward c event w' c' := by
  cases hf with
  | done outcome =>
    simp only [act, Option.some.injEq, Prod.mk.injEq] at h
    obtain ⟨rfl, rfl, rfl⟩ := h
    refine forward_enter (fun t => ?_) trivial hh ?_ fun id hid => ⟨hid, trivial⟩
    · simp only [completion, hs]
      rfl
    · simp only [stepsLeft, hs, enter]
      omega
  | panic text =>
    simp only [act, Option.some.injEq, Prod.mk.injEq] at h
    obtain ⟨rfl, rfl, rfl⟩ := h
    refine forward_answerWith (.panicked text) (fun t => ?_) rfl rfl (fun _ => rfl) hh ?_
      rfl rfl
    · simp only [completion, hs]
      rfl
    · simp only [stepsLeft, hs]
      omega
  | note entry hn =>
    simp only [act, Option.some.injEq, Prod.mk.injEq] at h
    obtain ⟨rfl, rfl, rfl⟩ := h
    exact forward_acting hs (fun t => rfl) hn hh (Nat.lt_succ_self _) rfl rfl
  | notify method params hn =>
    -- The writer is there, so that a notification is sent, as to the client of the plain order.
    simp only [act, Connection.send, hw, if_true, Option.some.injEq, Prod.mk.injEq] at h
    obtain ⟨rfl, rfl, rfl⟩ := h
    exact forward_acting hs (fun t => rfl) (hn _) hh (Nat.lt_succ_self _) rfl rfl
  | awaitCancelled hn =>
    -- Nothing gives the message up, so that the wait takes no step.
    simp [act, hc] at h
  | askCancelled hn =>
    -- The answer is the one that the plain order gives.
    have hfalse := Context.isCancelled_false hc
    simp only [act, hc, Option.some.injEq, Prod.mk.injEq] at h
    obtain ⟨rfl, rfl, rfl⟩ := h
    refine forward_acting hs (fun t => ?_) (hn _) hh (Nat.lt_succ_self _) rfl rfl
    rw [hfalse]
    rfl
  | look hn =>
    simp only [act, Option.some.injEq, Prod.mk.injEq] at h
    obtain ⟨rfl, rfl, rfl⟩ := h
    exact forward_acting hs (fun t => rfl) (hn _) hh (Nat.lt_succ_self _) rfl rfl
  | setTrace level hn =>
    simp only [act, Option.some.injEq, Prod.mk.injEq] at h
    obtain ⟨rfl, rfl, rfl⟩ := h
    exact forward_acting hs (fun t => rfl) hn hh (Nat.lt_succ_self _) rfl rfl
  | register method ha hn =>
    simp only [act, Option.some.injEq, Prod.mk.injEq] at h
    obtain ⟨rfl, rfl, rfl⟩ := h
    exact forward_acting hs (fun t => rfl) hn (hh.register ha method) (Nat.lt_succ_self _) rfl rfl
  | unregister method hn =>
    simp only [act, Option.some.injEq, Prod.mk.injEq] at h
    obtain ⟨rfl, rfl, rfl⟩ := h
    exact forward_acting hs (fun t => rfl) (hn _) (hh.unregister method) (Nat.lt_succ_self _) rfl
      rfl

/-- The step that looks for a callback. -/
private theorem forward_of_arrived (hs : w.stage = .arrived)
    (h : w.advance c = some (event, w', c')) (hh : c.handler.IsCallFree) :
    w.Forward c event w' c' := by
  simp only [advance, hs] at h
  -- Looked up: either refused, or handled by an entry that makes no calls.
  split at h <;> rename_i he <;> simp only [Option.some.injEq, Prod.mk.injEq] at h <;>
    obtain ⟨rfl, rfl, rfl⟩ := h
  · refine forward_enter (fun t => ?_) trivial hh ?_ fun id hid => ⟨hid, trivial⟩
    · simp only [completion, hs, enter]
      exact (Plain.serve_of_refuse w.number he).symm
    · simp [stepsLeft, hs, he, enter]
  · refine forward_enter (fun t => ?_) ?_ hh ?_ fun id hid => ⟨hid, trivial⟩
    · simp only [completion, hs, enter]
      exact (Plain.serve_of_handle w.number he).symm
    · exact hh _ _ (Handler.get?_of_lookUp he)
    · simp [stepsLeft, hs, he, enter]

/-- The step that starts the callback, or finds that it does not take the parameters. -/
private theorem forward_of_chosen {entry : Entry} (hs : w.stage = .chosen entry)
    (h : w.advance c = some (event, w', c'))
    (hc : w.context.isCancelled (c.isCancelled w.number) = false) (hf : entry.IsCallFree)
    (hh : c.handler.IsCallFree) : w.Forward c event w' c' := by
  -- The plain order knows of no cancellation; the time of the message counts in both.
  have hplain : w.context.isRefused false = false :=
    Context.isRefused_of_not_isCancelled (Context.isCancelled_false hc)
  simp only [advance, hs, Context.isRefused_of_not_isCancelled hc, Bool.false_eq_true,
    if_false] at h
  split at h <;> rename_i he <;> simp only [Option.some.injEq, Prod.mk.injEq] at h <;>
    obtain ⟨rfl, rfl, rfl⟩ := h
  · refine forward_enter (fun t => ?_) trivial hh ?_ fun id hid => ⟨hid, trivial⟩
    · simp only [completion, hs, enter, Plain.enter, hplain, Bool.false_eq_true, if_false, he]
      rfl
    · simp [stepsLeft, hs, enter, Entry.length, he]
  · refine forward_enter (fun t => ?_) (hf _ _ he) hh ?_ fun id hid => ⟨hid, trivial⟩
    · simp only [completion, hs, enter, Plain.enter, hplain, Bool.false_eq_true, if_false, he]
      rfl
    · simp [stepsLeft, hs, enter, Entry.length, he]

/-- The step that takes the request out of the requests in flight. -/
private theorem forward_of_handled {answer : ResponseMessage} (hs : w.stage = .handled answer)
    (h : w.advance c = some (event, w', c')) (hh : c.handler.IsCallFree) :
    w.Forward c event w' c' := by
  simp only [advance, hs] at h
  split at h <;> rename_i hid <;> simp only [Option.some.injEq, Prod.mk.injEq] at h <;>
    obtain ⟨rfl, rfl, rfl⟩ := h
  · refine ⟨fun t => ?_, ⟨trivial, hh⟩, ?_, rfl, fun ht p hp => ?_⟩
    · simp [completion, hs, enter, hid, Connection.settle, Tally.record]
    · simp [stepsLeft, hs, enter]
    · -- No other request is in flight.
      simp only [Connection.settle, List.mem_filter, bne_iff_ne] at hp
      exact absurd (Option.some.inj (hid.symm.trans (ht p hp.1).1)).symm hp.2
  · refine ⟨fun t => ?_, ⟨trivial, hh⟩, ?_, rfl, fun ht p hp => ?_⟩
    · simp [completion, hs, enter, hid, Tally.record]
    · simp [stepsLeft, hs, enter]
    · simpa [hid] using (ht p hp).1

/-- The step that answers the request. -/
private theorem forward_of_settled {answer : ResponseMessage} (hs : w.stage = .settled answer)
    (h : w.advance c = some (event, w', c')) (hw : c.writing = true)
    (hh : c.handler.IsCallFree) : w.Forward c event w' c' := by
  simp only [advance, hs, Connection.send, hw, if_true, Option.some.injEq, Prod.mk.injEq] at h
  obtain ⟨rfl, rfl, rfl⟩ := h
  refine ⟨fun t => ?completion_eq, ⟨trivial, hh⟩, ?stepsLeft_lt, rfl, fun ht p hp => ?tracks⟩
  case completion_eq =>
    simp [completion, hs, enter, Tally.record]
  case stepsLeft_lt =>
    simp [stepsLeft, hs, enter]
  case tracks =>
    simpa [Tracks, hs] using ht p hp

/-- A step of the work on a message takes a part of what is left, as long as the client receives
everything and the message is not given up. -/
theorem forward_of_advance (h : w.advance c = some (event, w', c')) (hw : c.writing = true)
    (hc : w.context.isCancelled (c.isCancelled w.number) = false) (hf : w.IsCallFree)
    (hh : c.handler.IsCallFree) : w.Forward c event w' c' := by
  cases hs : w.stage with
  | arrived => exact forward_of_arrived hs h hh
  | chosen entry =>
    exact forward_of_chosen hs h hc (by simpa only [IsCallFree, hs] using hf) hh
  | acting activity =>
    simp only [advance, hs] at h
    exact forward_of_act hs h hw hc (by simpa only [IsCallFree, hs] using hf) hh
  -- A callback without calls has none under way.
  | calling call stage method params next => simp [IsCallFree, hs] at hf
  | decided r =>
    simp only [advance, hs, Option.some.injEq, Prod.mk.injEq] at h
    obtain ⟨rfl, rfl, rfl⟩ := h
    refine forward_answerWith (.result r) (fun t => ?_) rfl rfl (fun _ => rfl) hh ?_ rfl rfl
    · simp only [completion, hs]
      rfl
    · simp [stepsLeft, hs]
  | handled answer => exact forward_of_handled hs h hh
  | settled answer => exact forward_of_settled hs h hw hh
  | finished => simp [advance, hs] at h

/-- Work that comes to its end takes its next step. -/
theorem advance_isSome {t : Tally} (ho : w.isOver = false) (hf : w.IsCallFree)
    (hc : w.context.isCancelled false = false)
    (hs : (w.completion ⟨c.handler, t, false⟩).stuck = false) : (w.advance c).isSome = true := by
  cases hst : w.stage with
  | arrived =>
    simp only [advance, hst]
    split <;> rfl
  | chosen entry =>
    simp only [advance, hst]
    split
    · rfl
    · split <;> rfl
  | acting activity =>
    simp only [advance, hst]
    cases activity with
    | awaitCancelled next =>
      -- Nothing gives the message up.
      simp [completion, hst, Plain.run, Activity.run, hc, Handler.conclude, Plain.answer,
        Handled.isStuck] at hs
    | _ => rfl
  | calling call stage method params next => simp [IsCallFree, hst] at hf
  | decided r | settled answer => simp [advance, hst]
  | handled answer =>
    simp only [advance, hst]
    split <;> rfl
  | finished => simp [isOver, hst] at ho

/-- Nothing is left of work that is done. -/
theorem completion_of_isOver {p : Plain} (ho : w.isOver = true) : w.completion p = p := by
  cases hst : w.stage with
  | finished => simp only [completion, hst]
  | _ => simp [isOver, hst] at ho

end Work

end LanguageServer
