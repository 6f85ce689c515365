import LanguageServer.Handler.Activity

/-!
# Handlers

A `Handler` knows what to do for which method, its settings, its trace level and where it is in its
life.  An `Entry` is what it knows for one method: parameters that do not decode are refused, with
others a callback is run.

* `Handler.lookUp` is the decision over a message: refuse it, or let an entry handle it.
* `Handler.finish` is what a handled message leaves behind in the handler.
-/

namespace LanguageServer

/-- Anything, for callbacks that do not look at their parameters. -/
def Codec.ignored : Codec Unit := Codec.json.map (fun _ => ()) (fun _ => .null)

/-- What to do with a message. -/
structure Entry where
  start : Context → Outcome Activity

namespace Entry

/-- Decode the parameters and run a callback on them. -/
def decoding {π : Type} (p : Codec π) (f : Context → π → Act (Outcome (Option LspAny))) :
    Entry where
  start x := (x.decodeParams p).map fun params => (f x params).toActivity

/-- A callback whose result is the answer, if it can be written. -/
def answering {π ρ : Type} (p : Codec π) (write : ρ → Outcome LspAny)
    (f : Context → π → Act (Outcome ρ)) : Entry :=
  decoding p fun x params => (f x params).andThen fun result => pure ((write result).map some)

/-- A callback whose result is the answer. -/
def request {π ρ : Type} (p : Codec π) (r : Codec ρ) (f : Context → π → Act (Outcome ρ)) : Entry :=
  answering p (fun result => .ok (.ofTyped r result)) f

/-- A callback without a result. -/
def notification {π : Type} (p : Codec π) (f : Context → π → Act (Outcome Unit)) : Entry :=
  decoding p fun x params => (f x params).andThen fun _ => pure (.ok none)

/-- A callback for `initialize`: the trace level is taken over, and the callback gets the result
that would be the answer without it. -/
def initialization
    (f : Context → InitializeParams → InitializeResult → Act (Outcome InitializeResult)) : Entry :=
  request InitializeParams.codec InitializeResult.codec fun x params => do
    match params.trace with
    | some level => Act.setTrace level
    | none => pure ()
    let outlook ← Act.look
    f x params (outlook.initializeResult params)

/-- A callback for `shutdown`. -/
def shutdown (f : Context → Act (Outcome Unit)) : Entry :=
  request Codec.ignored Codec.unit fun x _ => f x

/-- A callback for `exit`. -/
def exit (f : Context → Act (Outcome Unit)) : Entry :=
  notification Codec.ignored fun x _ => f x

/-- Take over the level that `$/setTrace` asks for. -/
def setTrace : Entry :=
  notification SetTraceParams.codec fun _ params => do
    Act.setTrace params.value
    pure (.ok ())

end Entry

/-- Handle a method from now on. -/
def Act.register (method : String) (entry : Entry) : Act Unit :=
  fun k => .register method entry.start (k ())

/-- What a server knows. -/
structure Handler where
  entries : Dictionary Entry
  config : ServerConfig := {}
  trace : TraceValue := .off
  life : Lifecycle := {}

/-- What is done with a message before any callback runs. -/
inductive Decision where
  | refuse (result : DispatchResult)
  | handle (entry : Entry)

namespace Handler

/-- A new handler answers `initialize` with what it can do, and `shutdown`. -/
def ofConfig (config : ServerConfig) : Handler where
  entries := .ofList [
    (Method.initialization, .initialization fun _ _ offered => pure (.ok offered)),
    (Method.shutdown, .shutdown fun _ => pure (.ok ()))]
  config

/-- Handle a method from now on, in place of an earlier callback. -/
def register (method : String) (entry : Entry) (h : Handler) : Handler :=
  { h with entries := h.entries.insert method entry }

/-- Handle a method no longer. -/
def unregister (method : String) (h : Handler) : Handler :=
  { h with entries := h.entries.erase method }

/-- The handler that takes over the trace level asked for. -/
def withTrace (h : Handler) : Handler := h.register Method.setTrace .setTrace

/-- Whether a method is handled. -/
def isRegistered (method : String) (h : Handler) : Bool := h.entries.contains method

/-- The methods that are handled, ascending. -/
def methods (h : Handler) : List String := h.entries.keys

/-- What callbacks see of the handler. -/
def outlook (h : Handler) : Outlook := ⟨h.methods, h.config, h.trace⟩

/-- What the server can do, as it stands. -/
def capabilities (h : Handler) : ServerCapabilities := h.outlook.capabilities

/-- Whether the server is initialized. -/
def isInitialized (h : Handler) : Bool := h.life.state == .initialized

/-- What is done with a message, apart from its being cancelled. `exit` needs no callback; any other
message needs one, and has to pass. -/
def lookUp (h : Handler) (method : String) : Decision :=
  match h.entries.get? method with
  | some entry => if h.life.admits method then .handle entry else .refuse (.failure .notInitialized)
  | none =>
    -- A message that does not pass is refused as such, even when its method is unknown.
    if method = Method.exit then .refuse (.success none)
    else if h.life.admits method then .refuse .methodNotFound
    else .refuse (.failure .notInitialized)

/-- What is done with a message; `token` says whether the client has cancelled it. -/
def decide (h : Handler) (x : Context) (token : Bool) : Decision :=
  match h.lookUp x.method with
  | .handle entry =>
    if x.isRefused token then .refuse (.failure .requestCancelled) else .handle entry
  | d => d

/-- The handler after a message has been handled. -/
def finish (h : Handler) (method : String) (r : DispatchResult) : Handler :=
  { h with life := h.life.after method r }

end Handler

end LanguageServer
