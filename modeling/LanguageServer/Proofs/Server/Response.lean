import LanguageServer.Proofs.Protocol.Message
import LanguageServer.Proofs.Server.Answer
import LanguageServer.Proofs.Server.SessionCalls

/-!
# What becomes of responses

An object without a method is a response.  `Session.response_of_run` says what the reader does with
it.  A response that decodes goes to the call that waits for it: the call gets its result and is no
longer listed, and nothing is queued.  One that does not decode goes the way of any body that is no
message: it is turned down with an answer, and the call whose identifier it bears goes on waiting,
as `Session.exists_response_answered` shows.
-/

namespace LanguageServer

/-- The answer that turns down a document which is no message, with its identifier if that
decodes. -/
def Json.rejection (j : Json) (e : DecodeError) : ResponseMessage :=
  .failure ((j.member? "id").bind fun id => (IntOrString.codec.ofJson id).toOption)
    (.of .invalidRequest e.words)

namespace Session

variable {s t : Session} {event : Event} {events : List Event} {server : Server}

/-- The document in the frame at the front of the input. -/
def front? (s : Session) : Option Json :=
  match Frame.read s.maxMessageSize (!s.inputEnded) s.input with
  | .frame frame _ => (Json.parse frame.content).toOption
  | _ => none

/-- What stands at the front of the input is the document in the next frame. -/
theorem front?_eq_some {j : Json} (h : s.front? = some j) :
    ∃ frame rest, Frame.read s.maxMessageSize (!s.inputEnded) s.input = .frame frame rest ∧
      Json.parse frame.content = .ok j := by
  simp only [front?] at h
  split at h
  · rename_i frame rest hf
    refine ⟨frame, rest, hf, ?_⟩
    -- Only what parses stands at the front.
    cases hj : Json.parse frame.content with
    | ok j' =>
      rw [hj] at h
      exact congrArg _ (Option.some.inj h)
    | error fault =>
      rw [hj] at h
      cases h
  · cases h

/-- The calls that wait are listed under their own identifiers, which differ. -/
theorem pending_of_run (h : server.session.Run events s) :
    (s.connection.calls.pending.map (·.1)).Nodup ∧
      ∀ p ∈ s.connection.calls.pending, p.1 = Calls.idOf p.2 := by
  obtain ⟨history, x, hx, hs⟩ := exchange_of_run h
  have hnodup := hx.nodup_ids List.nodup_nil
  have hlisted := (hx.sound (Exchange.sound_ofConnection _)).listed
  rw [Exchange.table, hs.connection_eq] at hnodup hlisted
  exact ⟨hnodup, fun p hp => (hlisted p hp).1⟩

/-- A response that decodes is taken; one that does not is turned down like a body that is no
message. -/
theorem ofBody_of_response {body : String} {j : Json} (hj : Json.parse body = .ok j)
    (hobject : j.isObject = true) (hmethod : j.hasMethod = false) :
    RpcMessage.ofBody body =
      ((ResponseMessage.codec.ofJson j).map .response).mapError j.rejection := by
  cases j with
  | object members =>
    simp only [RpcMessage.ofBody, hj, RpcMessage.ofJson_object, hmethod, Bool.false_eq_true,
      if_false]
    rfl
  | null | bool _ | number _ | string _ | array _ => cases hobject

/-- What the reader does with an object without a method.

* If it decodes as a response, nothing is queued or begun on account of it.  If it bears the
  identifier of a call that waits, that call is listed no longer and goes on with what the response
  says.
* If it does not decode, an answer with the identifier, if that decodes, says so to the client, and
  all calls that waited go on waiting. -/
theorem response_of_run (h : server.session.Run events s) {j : Json} (hp : s.phase = .reading)
    (hj : s.front? = some j) (hobject : j.isObject = true) (hmethod : j.hasMethod = false) :
    ∃ event t, s.step .reader = some (event, t) ∧
      ((∃ r, ResponseMessage.codec.ofJson j = .ok r ∧ event = .taken s.taken (.response r) ∧
        t.connection.outgoing = s.connection.outgoing ∧ t.works = s.works ∧
        ∀ id call, r.id = some id → (id, call) ∈ s.connection.calls.pending →
          t.connection.calls.isWaiting call = false ∧
          t.connection.calls.waiting? id = none ∧
          ∀ method, t.connection.calls.outcome? call method = some (Calls.resultOf r)) ∨
      ∃ e, ResponseMessage.codec.ofJson j = .error e ∧
        (event, t.connection) = s.connection.send .reader (.response (j.rejection e)) ∧
        t.connection.calls = s.connection.calls) := by
  obtain ⟨frame, rest, hf, hj⟩ := front?_eq_some hj
  have hbody := ofBody_of_response hj hobject hmethod
  cases hr : ResponseMessage.codec.ofJson j with
  | error e =>
    rw [hr] at hbody
    simp only [Except.map, Except.mapError] at hbody
    have hstep : s.step .reader =
        some ((s.connection.send .reader (.response (j.rejection e))).1, { s with
          input := rest
          connection := (s.connection.send .reader (.response (j.rejection e))).2 }) := by
      simp only [step, stepReader, hp, read, hf, hbody]
    exact ⟨_, _, hstep, .inr ⟨e, rfl, rfl, s.connection.calls_send _ _⟩⟩
  | ok r =>
    rw [hr] at hbody
    have hstep : s.step .reader =
        some (.taken s.taken (.response r), { s with input := rest }.take (.response r)) := by
      simp only [step, stepReader, hp, read, hf, hbody, Except.map, Except.mapError]
    refine ⟨_, _, hstep, .inl ⟨r, rfl, rfl, rfl, rfl, fun id call hid hpending => ?_⟩⟩
    obtain ⟨hnodup, hown⟩ := pending_of_run h
    obtain ⟨hleft, hanswer⟩ := Calls.complete_of_mem hnodup hid hpending
    show (s.connection.calls.complete r).isWaiting call = false ∧
      (s.connection.calls.complete r).waiting? id = none ∧
      ∀ method, (s.connection.calls.complete r).outcome? call method = some (Calls.resultOf r)
    refine ⟨?_, ?_, fun method => ?_⟩
    · rw [Bool.eq_false_iff, ne_eq, Calls.isWaiting_iff]
      rintro ⟨p, hin, rfl⟩
      obtain ⟨hin, hne⟩ := (hleft p).1 hin
      -- A call is listed under no identifier but its own.
      exact hne ((hown p hin).trans (hown _ hpending).symm)
    · simp only [Calls.waiting?, Option.map_eq_none_iff, List.find?_eq_none]
      intro p hin
      simpa using ((hleft p).1 hin).2
    · simp only [Calls.outcome?, hanswer]

/-- A server whose callback for one method calls the client. -/
def exampleCaller : Server where
  handler :=
    { entries := .ofList [("ask", ⟨fun _ => .ok (.call "reply" .null fun _ => .done (.ok none))⟩)]
      life := { state := .initialized } }

/-- The callback waits for its response, and something has come from the client. -/
def exampleAsked (body : String) : List Event × Session :=
  let request := "\x7b\"jsonrpc\":\"2.0\",\"id\":7,\"method\":\"ask\"\x7d"
  exampleCaller.session.play
    ([.receive (Frame.ofContent request).bytes, .step .reader] ++
      List.replicate 6 (.step (.job 0)) ++ [.receive (Frame.ofContent body).bytes])

/-- It is a run. -/
theorem run_exampleAsked (body : String) :
    exampleCaller.session.Run (exampleAsked body).1 (exampleAsked body).2 :=
  run_play exampleCaller.session _

/-- A response with a result, and one whose error is no error object. -/
def exampleReplies : String × String :=
  ("\x7b\"jsonrpc\":\"2.0\",\"id\":1,\"result\":true\x7d",
    "\x7b\"jsonrpc\":\"2.0\",\"id\":1,\"error\":\"oops\"\x7d")

/-- The first releases the call and is not answered; the second is answered and releases none. -/
theorem response_of_exampleReplies :
    (∃ event t, (exampleAsked exampleReplies.1).2.step .reader = some (event, t) ∧
      t.connection.outgoing = (exampleAsked exampleReplies.1).2.connection.outgoing ∧
      t.connection.calls.isWaiting 0 = false) ∧
    ∃ event t e j, (exampleAsked exampleReplies.2).2.step .reader = some (event, t) ∧
      (event, t.connection) = (exampleAsked exampleReplies.2).2.connection.send .reader
        (.response (Json.rejection j e)) ∧
      t.connection.calls = (exampleAsked exampleReplies.2).2.connection.calls := by
  obtain ⟨hp, hj, hpending, hp', hj'⟩ :
      (exampleAsked exampleReplies.1).2.phase = .reading ∧
      ((exampleAsked exampleReplies.1).2.front?.any fun j => j.isObject && !j.hasMethod &&
        (ResponseMessage.codec.ofJson j).toOption.any (·.id == some (Calls.idOf 0))) = true ∧
      (Calls.idOf 0, 0) ∈ (exampleAsked exampleReplies.1).2.connection.calls.pending ∧
      (exampleAsked exampleReplies.2).2.phase = .reading ∧
      ((exampleAsked exampleReplies.2).2.front?.any fun j => j.isObject && !j.hasMethod &&
        (ResponseMessage.codec.ofJson j).toOption.isNone) = true := by
    decide +kernel
  obtain ⟨j, hj, hkeys⟩ := (Option.any_eq_true _ _).1 hj
  obtain ⟨j', hj', hkeys'⟩ := (Option.any_eq_true _ _).1 hj'
  simp only [Bool.and_eq_true, Bool.not_eq_true'] at hkeys hkeys'
  refine ⟨?_, ?_⟩
  · -- The first reply decodes and releases the call.
    obtain ⟨event, t, hstep, ⟨r, hr, -, ho, -, hreleased⟩ | ⟨e, he, -⟩⟩ :=
      response_of_run (run_exampleAsked exampleReplies.1) hp hj hkeys.1.1 hkeys.1.2
    · have hid : r.id = some (Calls.idOf 0) := by simpa [hr, Except.toOption] using hkeys.2
      exact ⟨event, t, hstep, ho, (hreleased _ 0 hid hpending).1⟩
    · simp [he, Except.toOption] at hkeys
  · -- The other one does not, and is turned down.
    obtain ⟨event, t, hstep, ⟨r, hr, -⟩ | ⟨e, -, hsend, hcalls⟩⟩ :=
      response_of_run (run_exampleAsked exampleReplies.2) hp' hj' hkeys'.1.1 hkeys'.1.2
    · simp [hr, Except.toOption] at hkeys'
    · exact ⟨event, t, e, j', hstep, hsend, hcalls⟩

/-- A response that does not decode is answered, and the call whose identifier it bears goes on
waiting. -/
theorem exists_response_answered :
    ∃ j event t, (exampleAsked exampleReplies.2).2.phase = .reading ∧
      (exampleAsked exampleReplies.2).2.front? = some j ∧ j.isObject = true ∧
      j.hasMethod = false ∧
      (exampleAsked exampleReplies.2).2.step .reader = some (event, t) ∧
      event.queued?.isSome = true ∧
      ((j.member? "id").bind fun id => (IntOrString.codec.ofJson id).toOption) =
        some (Calls.idOf 0) ∧
      (Calls.idOf 0, 0) ∈ (exampleAsked exampleReplies.2).2.connection.calls.pending ∧
      t.connection.calls.isWaiting 0 = true := by
  obtain ⟨hp, hj, hpending, hstep⟩ :
      (exampleAsked exampleReplies.2).2.phase = .reading ∧
      ((exampleAsked exampleReplies.2).2.front?.any fun j => j.isObject && !j.hasMethod &&
        ((j.member? "id").bind fun id => (IntOrString.codec.ofJson id).toOption) ==
          some (Calls.idOf 0)) = true ∧
      (Calls.idOf 0, 0) ∈ (exampleAsked exampleReplies.2).2.connection.calls.pending ∧
      -- As one decidable fact: the run, the response at its front and the step that reads it.
      (((exampleAsked exampleReplies.2).2.step .reader).any fun p =>
        p.1.queued?.isSome && p.2.connection.calls.isWaiting 0) = true := by
    decide +kernel
  obtain ⟨j, hj, hkeys⟩ := (Option.any_eq_true _ _).1 hj
  obtain ⟨⟨event, t⟩, hstep, hevent⟩ := (Option.any_eq_true _ _).1 hstep
  simp only [Bool.and_eq_true, Bool.not_eq_true', beq_iff_eq] at hkeys hevent
  exact ⟨j, event, t, hp, hj, hkeys.1.1, hkeys.1.2, hstep, hevent.1, hkeys.2, hpending, hevent.2⟩

end Session

end LanguageServer
