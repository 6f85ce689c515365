import LanguageServer.Frame.Basic
import LanguageServer.Server.Work

/-!
# A server at work

A `Session` is a server that serves one client.  Four kinds of parties take turns: the reader, which
takes messages from the input and winds the session up at its end; the worker, which handles
notifications and `shutdown` one after the other; a job for every other request; and the writer.

`Session.step` is one step of one party.  Which party takes the next step is left open; a party that
has nothing to do, or that has to wait, takes none.
-/

namespace LanguageServer

/-- A handler with what a session needs to know. -/
structure Server where
  handler : Handler
  /-- The milliseconds after which requests count as cancelled. -/
  requestTimeout : Option Nat := none
  /-- The longest body that is read. -/
  maxMessageSize : Nat := Frame.defaultLimit

/-- The message that a body holds, or the answer that says why it holds none. -/
def RpcMessage.ofBody (body : String) : Except ResponseMessage RpcMessage :=
  match Json.parse body with
  | .error fault => .error (.failure none (.of .parseError (fault.message body)))
  | .ok j =>
    (RpcMessage.ofJson j).mapError fun e =>
      .failure ((j.member? "id").bind fun id => (IntOrString.codec.ofJson id).toOption)
        (.of .invalidRequest e.words)

/-- A request on its way to a callback. -/
def RequestMessage.context (m : RequestMessage) (timeout : Option Nat) : Context where
  method := m.method
  params := m.params.getD .null
  id := some m.id
  -- A shutdown waits for the notifications before it, so it must not be given up meanwhile.
  timeout := if m.method = Method.shutdown then none else timeout

/-- A notification on its way to a callback. -/
def NotificationMessage.context (m : NotificationMessage) : Context where
  method := m.method
  params := m.params.getD .null

/-- How far a session is. -/
inductive Phase where
  /-- Messages are taken. -/
  | reading
  /-- Calls are to be refused from now on. -/
  | closing
  /-- The requests in flight are to be given up. -/
  | cancelling
  /-- The calls that wait are to be given up. -/
  | releasing
  /-- The worker finishes what is left. -/
  | draining
  /-- The writer finishes what is left. -/
  | stopping
  /-- The session is over. -/
  | returned
deriving DecidableEq, Repr

/-- A party to a session. -/
inductive Party where
  | reader
  | worker
  | job (number : Nat)
  | writer
deriving DecidableEq, Repr

/-- A server at work. -/
structure Session where
  connection : Connection
  requestTimeout : Option Nat
  maxMessageSize : Nat
  /-- The bytes that have come and are not read yet. -/
  input : List UInt8 := []
  /-- Whether no more bytes come. -/
  inputEnded : Bool := false
  phase : Phase := .reading
  /-- What the session ends with. -/
  outcome : Outcome Unit := .ok ()
  /-- How many messages have been taken. -/
  taken : Nat := 0
  /-- What the worker has to do next. -/
  queue : List Work := []
  /-- What the worker does. -/
  current : Option Work := none
  /-- The other requests that are not done. -/
  jobs : List Work := []
  /-- Whether the client receives nothing any more. -/
  hungUp : Bool := false

/-- A session that begins. -/
def Server.session (s : Server) : Session where
  connection := { handler := s.handler }
  requestTimeout := s.requestTimeout
  maxMessageSize := s.maxMessageSize

namespace Session

/-- Bytes come from the client. -/
def receive (bytes : List UInt8) (s : Session) : Session := { s with input := s.input ++ bytes }

/-- No more bytes come from the client. -/
def endInput (s : Session) : Session := { s with inputEnded := true }

/-- The client receives nothing any more. -/
def hangUp (s : Session) : Session := { s with hungUp := true }

/-- Stop reading. -/
def stop (outcome : Outcome Unit) (s : Session) : Session :=
  { s with phase := .closing, outcome }

/-- Take a request: `shutdown` is left to the worker, any other request becomes a job. -/
def takeRequest (m : RequestMessage) (s : Session) : Session :=
  let work : Work := ⟨s.taken, m.context s.requestTimeout, .arrived⟩
  let s := { s with taken := s.taken + 1, connection := s.connection.track m.id s.taken }
  if m.method = Method.shutdown then { s with queue := s.queue ++ [work] }
  else { s with jobs := s.jobs ++ [work] }

/-- The request that a notification gives up. -/
def cancelTarget? (m : NotificationMessage) : Option Id :=
  if m.method = Method.cancelRequest then
    m.params.bind fun params => (CancelParams.codec.ofJson params).toOption.map (·.id)
  else none

/-- Take a notification: it is left to the worker, except that the request that it gives up is given
up at once, and that reading stops at `exit`. -/
def takeNotification (m : NotificationMessage) (s : Session) : Session :=
  let connection :=
    match cancelTarget? m with
    | some id => s.connection.cancel id
    | none => s.connection
  let work : Work := ⟨s.taken, m.context, .arrived⟩
  let s := { s with taken := s.taken + 1, connection, queue := s.queue ++ [work] }
  if m.method = Method.exit then s.stop (.ok ()) else s

/-- Take a message; a response is handed to the call that waits for it. -/
def take (s : Session) : RpcMessage → Session
  | .request m => s.takeRequest m
  | .notification m => s.takeNotification m
  | .response m =>
    { s with
      taken := s.taken + 1
      connection := { s.connection with calls := s.connection.calls.complete m } }

/-- Read what stands at the front of the input.  A reader that panics takes no more steps: nothing
is wound up, and what the other parties have in hand goes on. -/
def read (s : Session) : Option (Event × Session) :=
  match Frame.read s.maxMessageSize (!s.inputEnded) s.input with
  | .waiting | .overflow => none
  | .finished => some (.stopped (.ok ()), s.stop (.ok ()))
  | .broken e => some (.stopped (.error e), s.stop (.error e))
  | .frame frame rest =>
    -- A body that is no message is answered at once, and reading goes on.
    match RpcMessage.ofBody frame.content with
    | .error answer =>
      let (event, connection) := s.connection.send .reader (.response answer)
      some (event, { s with input := rest, connection })
    | .ok m => some (.taken s.taken m, ({ s with input := rest }).take m)

/-- A step of the reader: it reads, and in the end it winds the session up. -/
def stepReader (s : Session) : Option (Event × Session) :=
  match s.phase with
  | .reading => s.read
  -- From here on callbacks that call the client are released, so that the worker can finish.
  | .closing =>
    some (.quiet, { s with
      phase := .cancelling
      connection := { s.connection with calls := s.connection.calls.close } })
  | .cancelling =>
    some (.quiet, { s with phase := .releasing, connection := s.connection.cancelAll })
  | .releasing =>
    some (.quiet, { s with
      phase := .draining
      connection := { s.connection with calls := s.connection.calls.clear } })
  | .draining =>
    if s.queue.isEmpty && s.current.isNone then some (.quiet, { s with phase := .stopping })
    else none
  | .stopping =>
    if s.connection.writing then none else some (.quiet, { s with phase := .returned })
  | .returned => none

/-- A step of the worker. -/
def stepWorker (s : Session) : Option (Event × Session) :=
  match s.current with
  | some w =>
    (w.advance s.connection).map fun (event, w, connection) =>
      (event, { s with connection, current := if w.isOver then none else some w })
  | none =>
    match s.queue with
    | [] => none
    | w :: rest => some (.quiet, { s with queue := rest, current := some w })

/-- Put work in the place of the work with its number; work that is done is left out. -/
def putJob (w : Work) (jobs : List Work) : List Work :=
  if w.isOver then jobs.filter (·.number != w.number)
  else jobs.map fun v => if v.number = w.number then w else v

/-- A step of a job. -/
def stepJob (number : Nat) (s : Session) : Option (Event × Session) :=
  match s.jobs.find? (·.number == number) with
  | none => none
  | some w =>
    (w.advance s.connection).map fun (event, w, connection) =>
      (event, { s with connection, jobs := putJob w s.jobs })

/-- A step of the writer: it writes message after message.  It gives up when the client receives
nothing any more, and ends when it is told to stop and nothing is left. -/
def stepWriter (s : Session) : Option (Event × Session) :=
  let ended : Session :=
    { s with connection := { s.connection with writing := false, outgoing := [] } }
  if s.connection.writing then
    match s.connection.outgoing with
    | m :: rest =>
      -- The message that fails to be written is lost, and so are those behind it.
      if s.hungUp then some (.quiet, ended)
      else some (.wrote m, { s with connection := { s.connection with outgoing := rest } })
    | [] => if s.phase = .stopping then some (.quiet, ended) else none
  else none

/-- A step of a party. -/
def step : Party → Session → Option (Event × Session)
  | .reader => stepReader
  | .worker => stepWorker
  | .job number => stepJob number
  | .writer => stepWriter

end Session

end LanguageServer
