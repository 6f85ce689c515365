import LanguageServer.Server.Connection

/-!
# The work on one message

`Work` is the handling of one request or notification, from its arrival to its answer.
`Work.advance` takes one step of it; a step touches the connection at most once, so that other
parties may take steps in between.
-/

namespace LanguageServer

/-- How far a request to the client is. -/
inductive CallStage where
  /-- It has a number. -/
  | numbered
  /-- It is listed. -/
  | enlisted
  /-- It was listed too late: the client can no longer answer. -/
  | refused
  /-- It is to be sent. -/
  | unsent
  /-- It could not be sent. -/
  | failed
  /-- It waits for its response. -/
  | waiting
deriving DecidableEq, Repr

/-- What one step of a request to the client leads to. -/
inductive CallStep where
  /-- It is at a stage. -/
  | goesOn (stage : CallStage)
  /-- It is over. -/
  | yields (outcome : Outcome LspAny)

/-- One step of a request to the client; there is none while it waits for its response. -/
def CallStage.step (c : Connection) (sender : Sender) (call : Nat) (method : String)
    (params : LspAny) : CallStage → Option (Event × CallStep × Connection)
  | .numbered => some (.quiet, .goesOn .enlisted, { c with calls := c.calls.enlist call })
  | .enlisted =>
    -- The table may have been closed and cleared before the call was listed.
    some (.quiet, .goesOn (if c.calls.closed then .refused else .unsent), c)
  | .refused =>
    some (.quiet,
      .yields (.error (.connection ("connection closed before " ++ method ++ " was sent"))),
      { c with calls := c.calls.delist call })
  | .unsent =>
    let (event, sent) := c.send sender (.ofRequest (Calls.idOf call) method params.asParams)
    some (event, .goesOn (if c.writing then .waiting else .failed), sent)
  | .failed =>
    some (.quiet, .yields (.error Connection.writerGone), { c with calls := c.calls.delist call })
  | .waiting => (c.calls.outcome? call method).map fun outcome => (.quiet, .yields outcome, c)

/-- How far the work on a message is. -/
inductive Stage where
  /-- The message waits to be handled. -/
  | arrived
  /-- The handler has an entry for it. -/
  | chosen (entry : Entry)
  /-- Its callback runs. -/
  | acting (activity : Activity)
  /-- Its callback has a request to the client under way. -/
  | calling (call : Nat) (stage : CallStage) (method : String) (params : LspAny)
      (next : Outcome LspAny → Activity)
  /-- It is known what comes of it. -/
  | decided (result : DispatchResult)
  /-- It was handled and is to be answered. -/
  | handled (answer : ResponseMessage)
  /-- It is no longer in flight and is to be answered. -/
  | settled (answer : ResponseMessage)
  /-- It is done. -/
  | finished

/-- The handling of one message. -/
structure Work where
  /-- Which message it is; messages count from 0. -/
  number : Nat
  context : Context
  stage : Stage := .arrived

namespace Work

/-- Whether the work is done. -/
def isOver (w : Work) : Bool :=
  match w.stage with
  | .finished => true
  | _ => false

/-- The work at a stage. -/
def enter (stage : Stage) (w : Work) : Work := { w with stage }

/-- The work on a handled message: a request is to be answered. -/
def answerWith (answer : Id → ResponseMessage) (w : Work) : Work :=
  match w.context.id with
  | some id => w.enter (.handled (answer id))
  | none => w.enter .finished

/-- The answer to a request whose callback has panicked. -/
def panicAnswer (method : String) (id : Id) : ResponseMessage :=
  .failure (some id) (.of .internalError (method ++ " handler panicked"))

/-- A step of a callback; there is none while it waits for a cancellation. -/
def act (w : Work) (c : Connection) : Activity → Option (Event × Work × Connection)
  | .done outcome => some (.quiet, w.enter (.decided (.ofOutcome outcome)), c)
  | .panic text =>
    some (.panicked w.number w.context text, w.answerWith (panicAnswer w.context.method), c)
  | .note entry next => some (.noted w.number entry, w.enter (.acting next), c)
  | .notify method params next =>
    let (event, sent) := c.send (.callback w.number) (.ofNotification method params.asParams)
    some (event, w.enter (.acting
      (next (if c.writing then .ok () else .error Connection.writerGone))), sent)
  | .call method params next =>
    let (call, calls) := c.calls.take
    some (.quiet, w.enter (.calling call .numbered method params next), { c with calls })
  | .awaitCancelled next =>
    if w.context.isCancelled (c.isCancelled w.number) then some (.quiet, w.enter (.acting next), c)
    else none
  | .askCancelled next =>
    some (.quiet, w.enter (.acting (next (w.context.isCancelled (c.isCancelled w.number)))), c)
  | .look next => some (.quiet, w.enter (.acting (next c.handler.outlook)), c)
  | .setTrace level next =>
    some (.quiet, w.enter (.acting next), { c with handler := { c.handler with trace := level } })
  | .register method start next =>
    some (.quiet, w.enter (.acting next), { c with handler := c.handler.register method ⟨start⟩ })
  | .unregister method next =>
    some (.quiet, w.enter (.acting (next (c.handler.isRegistered method))),
      { c with handler := c.handler.unregister method })

/-- A step of a request to the client that a callback has under way; with its outcome the callback
goes on. -/
def call (w : Work) (c : Connection) (call : Nat) (method : String) (params : LspAny)
    (next : Outcome LspAny → Activity) (stage : CallStage) : Option (Event × Work × Connection) :=
  (stage.step c (.callback w.number) call method params).map fun
    | (event, .goesOn stage, c) => (event, w.enter (.calling call stage method params next), c)
    | (event, .yields outcome, c) => (event, w.enter (.acting (next outcome)), c)

/-- One step of the work on a message; there is none while it waits, or when it is done. -/
def advance (w : Work) (c : Connection) : Option (Event × Work × Connection) :=
  match w.stage with
  | .arrived =>
    match c.handler.lookUp w.context.method with
    | .refuse result => some (.begun w.number w.context, w.enter (.decided result), c)
    | .handle entry => some (.begun w.number w.context, w.enter (.chosen entry), c)
  | .chosen entry =>
    -- A cancellation counts up to the moment when the callback starts.
    if w.context.isRefused (c.isCancelled w.number) then
      some (.quiet, w.enter (.decided (.failure .requestCancelled)), c)
    else
      match entry.start w.context with
      | .error e => some (.quiet, w.enter (.decided (.invalidParams (some e))), c)
      | .ok activity => some (.invoked w.number, w.enter (.acting activity), c)
  | .acting activity => w.act c activity
  | .calling number stage method params next => w.call c number method params next stage
  | .decided result =>
    some (.returned w.number w.context result,
      w.answerWith fun id => result.response id w.context.method,
      { c with handler := c.handler.finish w.context.method result })
  | .handled answer =>
    -- The request leaves the requests in flight before its answer is queued.
    match w.context.id with
    | some id => some (.quiet, w.enter (.settled answer), c.settle id)
    | none => some (.quiet, w.enter .finished, c)
  | .settled answer =>
    let (event, sent) := c.send (.answer w.number) (.response answer)
    some (event, w.enter .finished, sent)
  | .finished => none

end Work

end LanguageServer
