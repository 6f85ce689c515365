import LanguageServer.Server.Schedule

/-!
# A session as its client sees it

A `Conversation` is a session together with what has reached its client. Whatever the client does,
the session then goes on as far as it can.
-/

namespace LanguageServer

/-- A session with what has reached its client. -/
structure Conversation where
  session : Session
  /-- The messages that the client has not taken yet. -/
  unread : List RpcMessage := []
  /-- The notes that callbacks have left. -/
  notes : List Json := []

/-- A conversation that begins. -/
def Server.conversation (s : Server) : Conversation := { session := s.session }

namespace Conversation

/-- More steps than any conversation takes between two acts of its client. -/
def enough : Nat := 1000000

/-- Let the session go on as far as it can. -/
def settle (c : Conversation) : Conversation :=
  let (events, session) := c.session.settle enough
  { session
    unread := c.unread ++ if session.hungUp then [] else Event.written events
    notes := c.notes ++ Event.notes events }

/-- The client sends bytes. -/
def send (bytes : List UInt8) (c : Conversation) : Conversation :=
  { c with session := c.session.receive bytes }.settle

/-- The client sends a frame around a body. -/
def sendBody (body : String) (c : Conversation) : Conversation :=
  c.send (Frame.ofContent body).bytes

/-- The client sends nothing any more. -/
def endInput (c : Conversation) : Conversation := { c with session := c.session.endInput }.settle

/-- The client receives nothing any more. -/
def hangUp (c : Conversation) : Conversation :=
  { c with session := c.session.hangUp, unread := [] }.settle

/-- The client takes some messages; those that do not come are missing. -/
def receive (count : Nat) (c : Conversation) : List (Option RpcMessage) × Conversation :=
  ((List.range count).map fun i => c.unread[i]?, { c with unread := c.unread.drop count })

end Conversation

end LanguageServer
