import LanguageServer.Method
import LanguageServer.Protocol.Message

/-!
# The message at hand

A `Context` is what a callback gets to know of the message that it handles.
-/

namespace LanguageServer

/-- A message on its way to a callback. -/
structure Context where
  method : String
  params : Json := .null
  id : Option Id := none
  /-- The milliseconds after which a request counts as cancelled. -/
  timeout : Option Nat := none

namespace Context

/-- Whether the message wants no answer. -/
def isNotification (c : Context) : Bool := c.id.isNone

/-- Whether the time for the message has run out before it is looked at.

There is no clock here: a message with no time at all has run out of it from the start, and one with
some time is taken to be looked at in time, so that a positive timeout changes nothing in a run of a
session.  Where a timeout does run out, the message is treated as one with a token that was
cancelled, which a run allows at any moment before its callback starts. -/
def hasExpired (c : Context) : Bool := c.timeout == some 0

/-- Whether the message is given up; `token` says whether the client has cancelled it. -/
def isCancelled (c : Context) (token : Bool) : Bool := token || c.hasExpired

/-- Whether a request is refused because it is given up; `exit` and notifications never are. -/
def isRefused (c : Context) (token : Bool) : Bool :=
  !c.isNotification && c.method != Method.exit && c.isCancelled token

/-- Decode the parameters.  Parameters that are null count as an empty object where null does not
decode. -/
def decodeParams {α : Type} (c : Codec α) (x : Context) : Outcome α :=
  match c.ofJson x.params with
  | .ok a => .ok a
  | .error e =>
    -- When both fail, the failure to decode null is the one that counts.
    if x.params.isNull then (c.ofJson (.object [])).mapError fun _ => .ofDecode e
    else .error (.ofDecode e)

end Context

end LanguageServer
