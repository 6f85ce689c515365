import LanguageServer.Protocol.Message

/-!
# Requests to the client

`Calls` keeps the requests that the server has sent and that still wait for a response. A call takes
a number, lists itself under the identifier of that number, and then waits until a response with
that identifier is handed over or until the table is cleared.

* `Calls.complete` hands a response to the call that waits for it; other responses change nothing.
* `Calls.outcome?` is what a call that waits has to go on with: nothing as long as it is listed.
-/

namespace LanguageServer

/-- The requests to the client that wait for a response. -/
structure Calls where
  /-- How many calls have taken a number. -/
  taken : Nat := 0
  /-- The calls that wait, by the identifiers of their requests. -/
  pending : List (Id × Nat) := []
  /-- The responses that have been handed over. -/
  answers : List (Nat × ResponseMessage) := []
  /-- Whether the client can no longer answer. -/
  closed : Bool := false

namespace Calls

/-- The identifier of the request of a call: calls count from 1, with 32 bits. -/
def idOf (call : Nat) : Id := .int (Int32.ofNat (call + 1))

/-- Take the next number. -/
def take (c : Calls) : Nat × Calls := (c.taken, { c with taken := c.taken + 1 })

/-- The call that waits under an identifier. -/
def waiting? (c : Calls) (id : Id) : Option Nat := (c.pending.find? (·.1 == id)).map (·.2)

/-- Whether a call waits. -/
def isWaiting (c : Calls) (call : Nat) : Bool := c.pending.any (·.2 == call)

/-- Free an identifier. -/
def release (id : Id) (c : Calls) : Calls := { c with pending := c.pending.filter (·.1 != id) }

/-- List a call under its identifier, in place of an earlier one. -/
def enlist (call : Nat) (c : Calls) : Calls :=
  { c with pending := (idOf call, call) :: (c.release (idOf call)).pending }

/-- Take a call off the list. -/
def delist (call : Nat) (c : Calls) : Calls := c.release (idOf call)

/-- Hand a response to the call that waits for it. -/
def complete (r : ResponseMessage) (c : Calls) : Calls :=
  match r.id with
  | none => c
  | some id =>
    match c.waiting? id with
    | none => c
    | some call => { c.release id with answers := (call, r) :: c.answers }

/-- From now on no call is sent. -/
def close (c : Calls) : Calls := { c with closed := true }

/-- Give up all calls that wait. -/
def clear (c : Calls) : Calls := { c with pending := [] }

/-- The response to a call. -/
def answer? (c : Calls) (call : Nat) : Option ResponseMessage :=
  (c.answers.find? (·.1 == call)).map (·.2)

/-- What a call gets out of its response. -/
def resultOf (r : ResponseMessage) : Outcome LspAny :=
  match r.toResult with
  | .ok result => .ok (.ofJson result)
  | .error e => .error (.protocol e)

/-- What a call that was sent goes on with: its response, or an error once nothing can be handed to
it any more. -/
def outcome? (c : Calls) (call : Nat) (method : String) : Option (Outcome LspAny) :=
  match c.answer? call with
  | some r => some (resultOf r)
  | none =>
    if c.isWaiting call then none
    else some (.error (.connection ("connection closed before " ++ method ++ " was answered")))

end Calls

end LanguageServer
