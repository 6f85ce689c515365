import LanguageServer.Server.Session

/-!
# One order of the steps

`Session.turn` lets the parties take their steps in a fixed order of precedence: everything that a
message leads to is done before the next message is read, and the end of reading is made known
before anything else goes on. `Session.settle` takes turns until all parties wait.
-/

namespace LanguageServer

namespace Session

/-- Whether the end of reading is not known to all yet. -/
def isEnding (s : Session) : Bool :=
  s.phase = .closing || s.phase = .cancelling || s.phase = .releasing

/-- The parties in the order of their precedence. -/
def parties (s : Session) : List Party :=
  -- The reader comes last, but its news of the end comes first.
  let others := .worker :: s.jobs.map (.job ·.number) ++ [.writer]
  if s.isEnding then .reader :: others else others ++ [.reader]

/-- The step of the first party that has something to do. -/
def turn (s : Session) : Option (Event × Session) := s.parties.findSome? fun p => s.step p

/-- Take turns until all parties wait, at most as many as there is fuel. -/
def settle : Nat → Session → List Event × Session
  | 0, s => ([], s)
  | fuel + 1, s =>
    match s.turn with
    | none => ([], s)
    | some (event, s) =>
      let (events, s) := settle fuel s
      (event :: events, s)

end Session

/-- The messages that were written, in order. -/
def Event.written (events : List Event) : List RpcMessage :=
  events.filterMap fun
    | .wrote m => some m
    | _ => none

/-- The notes that callbacks left, in order. -/
def Event.notes (events : List Event) : List Json :=
  events.filterMap fun
    | .noted _ entry => some entry
    | _ => none

end LanguageServer
