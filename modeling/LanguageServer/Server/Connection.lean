import LanguageServer.Handler.Registry
import LanguageServer.Handler.Run
import LanguageServer.Server.Calls

/-!
# What all work on a connection shares

A `Connection` holds the handler, the requests in both directions that are not answered yet, and the
messages on their way out.  An `Event` is what an outsider may notice of one step of one party.
-/

namespace LanguageServer

/-- Who has a message sent; messages taken from the input count from 0. -/
inductive Sender where
  /-- The reader, about something that is no message. -/
  | reader
  /-- The answer to a request. -/
  | answer (number : Nat)
  /-- A callback. -/
  | callback (number : Nat)
deriving DecidableEq, Repr

/-- What happens in one step. -/
inductive Event where
  /-- Bytes have come from the client. -/
  | received (bytes : List UInt8)
  /-- A message was taken from the input. -/
  | taken (number : Nat) (message : RpcMessage)
  /-- Reading has stopped, for good or with an error. -/
  | stopped (outcome : Outcome Unit)
  /-- A message was handed to the handler. -/
  | begun (number : Nat) (context : Context)
  /-- The callback for a message was started. -/
  | invoked (number : Nat)
  /-- A callback left a note. -/
  | noted (number : Nat) (entry : Json)
  /-- The handler is done with a message. -/
  | returned (number : Nat) (context : Context) (result : DispatchResult)
  /-- The callback for a message has panicked. -/
  | panicked (number : Nat) (context : Context) (text : String)
  /-- A message was queued for the client. -/
  | queued (sender : Sender) (message : RpcMessage)
  /-- A message was given up because nothing is written any more. -/
  | dropped (sender : Sender) (message : RpcMessage)
  /-- A message was written to the client. -/
  | wrote (message : RpcMessage)
  /-- Nothing that shows. -/
  | quiet

/-- What all work on a connection shares. -/
structure Connection where
  handler : Handler
  calls : Calls := {}
  /-- The requests of the client that are not answered yet, by identifier. -/
  inFlight : List (Id × Nat) := []
  /-- The requests that are given up. -/
  cancelled : List Nat := []
  /-- The messages on their way out. -/
  outgoing : List RpcMessage := []
  /-- Whether messages are still written. -/
  writing : Bool := true

namespace Connection

/-- Queue a message, unless nothing is written any more. -/
def send (sender : Sender) (m : RpcMessage) (c : Connection) : Event × Connection :=
  if c.writing then (.queued sender m, { c with outgoing := c.outgoing ++ [m] })
  else (.dropped sender m, c)

/-- Whether a request is given up. -/
def isCancelled (c : Connection) (number : Nat) : Bool := c.cancelled.contains number

/-- Enter a request into the requests in flight, in place of an earlier one with its identifier. -/
def track (id : Id) (number : Nat) (c : Connection) : Connection :=
  { c with inFlight := (id, number) :: c.inFlight.filter (·.1 != id) }

/-- Take a request off the requests in flight. -/
def settle (id : Id) (c : Connection) : Connection :=
  { c with inFlight := c.inFlight.filter (·.1 != id) }

/-- Give up the request in flight with an identifier. -/
def cancel (id : Id) (c : Connection) : Connection :=
  match c.inFlight.find? (·.1 == id) with
  | some (_, number) => { c with cancelled := number :: c.cancelled }
  | none => c

/-- Give up all requests in flight. -/
def cancelAll (c : Connection) : Connection :=
  { c with cancelled := c.inFlight.map (·.2) ++ c.cancelled }

/-- The error of sending when nothing is written any more. -/
def writerGone : LspError := .connection "writer task has stopped"

end Connection

/-- Parameters of a message to the client; null is left out. -/
def LspAny.asParams (params : LspAny) : Option Json :=
  if params.isNull then none else some params.toJson

end LanguageServer
