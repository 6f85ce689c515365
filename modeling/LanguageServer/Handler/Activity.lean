import LanguageServer.Advertised
import LanguageServer.Handler.Context
import LanguageServer.Handler.Lifecycle

/-!
# What callbacks do

An `Activity` is what a callback does, one act after the other, until it ends with a result, an
error or a panic. It can send notifications and requests to the client, look at its server and
change which methods it handles, so that what it does next depends on the answers.

An `Act` is a part of an activity that yields a value; acts are put together with `do`.
-/

namespace LanguageServer

/-- What a callback sees of its server. -/
structure Outlook where
  methods : List String
  config : ServerConfig
  trace : TraceValue

namespace Outlook

/-- What the server can do, as it stands. -/
def capabilities (o : Outlook) : ServerCapabilities := .ofMethods o.methods o.config

/-- The answer to `initialize` unless a callback changes it. -/
def initializeResult (o : Outlook) (params : InitializeParams) : InitializeResult where
  capabilities :=
    { o.capabilities with
      positionEncoding := some (o.config.negotiateEncoding params.capabilities) }
  serverInfo := some o.config.serverInfo

end Outlook

/-- What a callback does. -/
inductive Activity where
  /-- End with a result or an error; notifications have no result. -/
  | done (outcome : Except LspError (Option LspAny))
  /-- End without a result. -/
  | panic (message : String)
  /-- Leave a note in the journal. -/
  | note (entry : Json) (next : Activity)
  /-- Send a notification. -/
  | notify (method : String) (params : LspAny) (next : Except LspError Unit → Activity)
  /-- Send a request and wait for its answer. -/
  | call (method : String) (params : LspAny) (next : Except LspError LspAny → Activity)
  /-- Wait until the message is given up. -/
  | awaitCancelled (next : Activity)
  /-- Ask whether the message is given up, without waiting for it. -/
  | askCancelled (next : Bool → Activity)
  /-- Look at the server. -/
  | look (next : Outlook → Activity)
  /-- Set the trace level. -/
  | setTrace (level : TraceValue) (next : Activity)
  /-- Handle a method from now on; `start` refuses parameters or says what to do. -/
  | register (method : String) (start : Context → Except LspError Activity) (next : Activity)
  /-- Handle a method no longer; the answer is whether it was handled. -/
  | unregister (method : String) (next : Bool → Activity)

/-- A part of an activity that yields a value, given what comes after it. -/
def Act (α : Type) : Type := (α → Activity) → Activity

namespace Act

instance : Monad Act where
  pure a := fun k => k a
  bind t f := fun k => t fun a => f a k

/-- End without a value. -/
def panic {α : Type} (message : String) : Act α := fun _ => .panic message

/-- Leave a note in the journal. -/
def note (entry : Json) : Act Unit := fun k => .note entry (k ())

/-- Send a notification. -/
def notify (method : String) (params : LspAny) : Act (Outcome Unit) :=
  fun k => .notify method params k

/-- Send a request and wait for its answer. -/
def call (method : String) (params : LspAny) : Act (Outcome LspAny) :=
  fun k => .call method params k

/-- Wait until the message is given up. -/
def awaitCancelled : Act Unit := fun k => .awaitCancelled (k ())

/-- Ask whether the message is given up, without waiting for it. -/
def askCancelled : Act Bool := fun k => .askCancelled k

/-- Look at the server. -/
def look : Act Outlook := fun k => .look k

/-- Set the trace level. -/
def setTrace (level : TraceValue) : Act Unit := fun k => .setTrace level (k ())

/-- Handle a method no longer. -/
def unregister (method : String) : Act Bool := fun k => .unregister method k

/-- Go on with the value of a success. -/
def andThen {α β : Type} (t : Act (Outcome α)) (f : α → Act (Outcome β)) : Act (Outcome β) := do
  match ← t with
  | .ok a => f a
  | .error e => pure (.error e)

/-- The activity of an act that ends with a result. -/
def toActivity (t : Act (Outcome (Option LspAny))) : Activity := t .done

end Act

end LanguageServer
