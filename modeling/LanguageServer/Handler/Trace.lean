import LanguageServer.Handler.Client

/-!
# Telling what goes on

The trace level says what the server tells the client of its own doings: nothing when it is off,
errors, warnings and information at `messages`, everything at `verbose`.
-/

namespace LanguageServer

/-- Whether messages of a type pass at a level. -/
def TraceValue.admits : TraceValue → MessageType → Bool
  | .off, _ => false
  | .messages, type => type == .error || type == .warning || type == .info
  | .verbose, _ => true

namespace Trace

/-- Have a message logged if the level admits it; the answer is whether it was sent. -/
def message (type : MessageType) (text : String) : Act (Outcome Bool) := do
  let outlook ← Act.look
  if outlook.trace.admits type then
    (Client.logMessage type text).andThen fun _ => pure (.ok true)
  else pure (.ok false)

/-- Tell about the server's own doings unless the level is off, with details at `verbose`; the
answer is whether it was sent. -/
def tell (text : String) (details : Option String) : Act (Outcome Bool) := do
  let outlook ← Act.look
  match outlook.trace with
  | .off => pure (.ok false)
  | level =>
    let verbose := if level = .verbose then details else none
    (Client.logTrace { message := text, verbose }).andThen fun _ => pure (.ok true)

end Trace

end LanguageServer
