import LanguageServer.Handler.Dispatch
import LanguageServer.Method

/-!
# The life of a server

A server starts uninitialized; a successful `initialize` makes it initialized, a successful
`shutdown` makes it shut down, and `exit` ends it.  In between, only an initialized server takes
messages other than `initialize` and `exit`.
-/

namespace LanguageServer

/-- Where a server is in its life. -/
inductive LifecycleState where
  | uninitialized
  | initialized
  | shuttingDown
  | exited
deriving DecidableEq, Repr

/-- Where a server is in its life, and whether its last exit came after a shutdown. -/
structure Lifecycle where
  state : LifecycleState := .uninitialized
  cleanExit : Bool := false
deriving DecidableEq, Repr

namespace Lifecycle

/-- Go over to a state. -/
def enter (state : LifecycleState) (l : Lifecycle) : Lifecycle :=
  { state
    cleanExit := if state = .exited then l.state == .shuttingDown else l.cleanExit }

/-- Whether messages of a method pass. -/
def admits (l : Lifecycle) (method : String) : Bool :=
  Method.isUngated method || l.state == .initialized

/-- The life after a message has been handled: `exit` counts whatever comes of it, `initialize` and
`shutdown` when they succeed. -/
def after (l : Lifecycle) (method : String) (r : DispatchResult) : Lifecycle :=
  -- The process ends after `exit`, whatever its callback did.
  if method = Method.exit then l.enter .exited
  else if r.isSuccess then
    if method = Method.initialization then l.enter .initialized
    else if method = Method.shutdown then l.enter .shuttingDown
    else l
  else l

/-- The exit code of the process. -/
def exitCode (l : Lifecycle) : Nat := if l.cleanExit then 0 else 1

end Lifecycle

end LanguageServer
