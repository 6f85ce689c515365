import LanguageServer.Handler.Registry

/-!
# Handling a message alone

Here nothing else goes on while a message is handled.  `Hooks` stand for the client: what comes of
notifications and requests, and where notes go; they keep a state of their own.
-/

namespace LanguageServer

/-- The client as callbacks meet it. -/
structure Hooks (σ : Type) where
  notify : String → LspAny → σ → Outcome Unit × σ
  call : String → LspAny → σ → Outcome LspAny × σ
  note : Json → σ → σ

/-- Hooks without a client behind them. -/
def Hooks.detached {σ : Type} (note : Json → σ → σ) : Hooks σ where
  notify method _ w :=
    (.error (.connection ("cannot send " ++ method ++ ": no transport attached")), w)
  call method _ w :=
    (.error (.connection ("cannot call " ++ method ++ ": no transport attached")), w)
  note

/-- How an activity ends. -/
inductive Ending where
  | done (outcome : Outcome (Option LspAny))
  | panicked (message : String)
  /-- It waits for a cancellation that does not come. -/
  | stuck

/-- Run an activity; `cancelled` says whether its message is given up. -/
def Activity.run {σ : Type} (hooks : Hooks σ) (cancelled : Bool) :
    Activity → Handler → σ → Ending × Handler × σ
  | .done outcome, h, w => (.done outcome, h, w)
  | .panic message, h, w => (.panicked message, h, w)
  | .note entry next, h, w => next.run hooks cancelled h (hooks.note entry w)
  | .notify method params next, h, w =>
    (next (hooks.notify method params w).1).run hooks cancelled h (hooks.notify method params w).2
  | .call method params next, h, w =>
    (next (hooks.call method params w).1).run hooks cancelled h (hooks.call method params w).2
  | .awaitCancelled next, h, w => if cancelled then next.run hooks cancelled h w else (.stuck, h, w)
  | .askCancelled next, h, w => (next cancelled).run hooks cancelled h w
  | .look next, h, w => (next h.outlook).run hooks cancelled h w
  | .setTrace level next, h, w => next.run hooks cancelled { h with trace := level } w
  | .register method start next, h, w =>
    next.run hooks cancelled (h.register method ⟨start⟩) w
  | .unregister method next, h, w =>
    (next (h.isRegistered method)).run hooks cancelled (h.unregister method) w

/-- What comes of handing a message to a handler. -/
inductive Handled where
  | result (result : DispatchResult)
  | panicked (message : String)
  | stuck

/-- Hand a message to a handler; `token` says whether the client has cancelled it. -/
def Handler.handle {σ : Type} (hooks : Hooks σ) (h : Handler) (x : Context) (token : Bool) (w : σ) :
    Handled × Handler × σ :=
  match h.decide x token with
  | .refuse r => (.result r, h.finish x.method r, w)
  | .handle entry =>
    match entry.start x with
    | .error e =>
      (.result (.invalidParams (some e)), h.finish x.method (.invalidParams (some e)), w)
    | .ok activity =>
      match activity.run hooks (x.isCancelled token) h w with
      | (.done outcome, h, w) =>
        (.result (.ofOutcome outcome), h.finish x.method (.ofOutcome outcome), w)
      | (.panicked message, h, w) => (.panicked message, h, w)
      | (.stuck, h, w) => (.stuck, h, w)

end LanguageServer
