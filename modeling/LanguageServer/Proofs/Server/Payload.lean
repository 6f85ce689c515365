import LanguageServer.Handler.Client
import LanguageServer.Proofs.Frame.RoundTrip
import LanguageServer.Proofs.Narrow
import LanguageServer.Proofs.Server.Leads

/-!
# Payloads between callbacks and the client

What callbacks give to the client, and what the client gives to them, is passed on as values of any
kind.  `Session.payload_of_run` says that this cannot be noticed as long as all integers are 32-bit
words: an answer has the document of the result, a message to the client has the document of the
parameters, without it if that is null, and a callback gets from the client's result what is read
from that result itself.

`Entry.reply` and `Client.receive` are what follows a callback and a request to the client, so that
the stage of the work says what the callback has come to.
-/

namespace LanguageServer

namespace Json

/-- A document that a value of any kind holds as it is: all its integers are 32-bit words. -/
structure IsPlain (j : Json) : Prop where
  wellFormed : j.WellFormed
  isNarrow : j.IsNarrow

/-- Null is plain. -/
theorem isPlain_null : Json.null.IsPlain := ⟨.null, fun _ hn => absurd hn List.not_mem_nil⟩

/-- Truth values are plain. -/
theorem isPlain_bool (b : Bool) : (Json.bool b).IsPlain :=
  ⟨.bool b, fun _ hn => absurd hn List.not_mem_nil⟩

/-- Texts are plain. -/
theorem isPlain_string (s : String) : (Json.string s).IsPlain :=
  ⟨.string s, fun _ hn => absurd hn List.not_mem_nil⟩

/-- An array is plain when its items are. -/
theorem isPlain_array {items : List Json} (h : ∀ j ∈ items, j.IsPlain) :
    (Json.array items).IsPlain :=
  ⟨.array items fun j hj => (h j hj).wellFormed,
    isNarrow_array_iff.2 fun j hj => (h j hj).isNarrow⟩

/-- An integer is plain when a word of 32 bits holds it. -/
theorem isPlain_int {n : Int} (low : -0x80000000 ≤ n) (high : n ≤ 0xFFFFFFFF) :
    (Json.int n).IsPlain where
  wellFormed := by
    apply WellFormed.int
    · simp only [Number.minInt]
      omega
    · simp only [Number.maxInt]
      omega
  isNarrow m hm := by
    cases List.mem_singleton.1 hm
    exact ⟨low, high⟩

/-- An object is plain when what stands under its keys is. -/
theorem isPlain_ofPairs {pairs : Members Json} (h : ∀ m ∈ pairs, m.2.IsPlain) :
    (Json.ofPairs pairs).IsPlain where
  wellFormed := .object _ (Members.ascending_ofList pairs) fun m hm =>
    (h m (Members.mem_of_mem_ofList hm)).wellFormed
  isNarrow := isNarrow_object_iff.2 fun m hm => (h m (Members.mem_of_mem_ofList hm)).isNarrow

/-- What an object holds is no wider than the object. -/
theorem IsPlain.of_object {members : Members Json} (h : (Json.object members).IsPlain) :
    members.Ascending ∧ ∀ m ∈ members, m.2.IsPlain := by
  have hnarrow := isNarrow_object_iff.1 h.isNarrow
  cases h.wellFormed with
  | object _ ascending each => exact ⟨ascending, fun m hm => ⟨each m hm, hnarrow m hm⟩⟩

/-- A document as the parameters of a message; null is left out. -/
def asParams (j : Json) : Option Json := if j.isNull then none else some j

end Json

namespace LspAny

/-- No integer is read as null. -/
theorem isNull_ofInt (n : Int) : (ofInt n).isNull = false := by
  simp only [ofInt]
  split
  · rfl
  · split <;> rfl

/-- Only null is read as null. -/
theorem isNull_ofJson (j : Json) : (ofJson j).isNull = j.isNull := by
  cases j with
  | number n =>
    cases n with
    | int n =>
      simp only [ofJson, ofNumber]
      split <;> exact isNull_ofInt _
    | float f => rfl
  | null | bool _ | string _ | array _ | object _ => rfl

/-- Plain parameters are sent as they were written. -/
theorem asParams_ofTyped {α : Type} {c : Codec α} {a : α} (h : (c.encode a).IsPlain) :
    (ofTyped c a).asParams = (c.encode a).asParams := by
  rw [ofTyped, asParams, isNull_ofJson, toJson_ofJson_of_isNarrow h.wellFormed h.isNarrow,
    Json.asParams]

/-- What a plain document holds is read as if it were read at once. -/
theorem decodeAs_ofJson {α : Type} (c : Codec α) {j : Json} (h : j.IsPlain) :
    (ofJson j).decodeAs c = c.ofJson j := by
  rw [decodeAs, toJson_ofJson_of_isNarrow h.wellFormed h.isNarrow]

end LspAny

/-! ## What follows -/

namespace Entry

variable {π ρ : Type}

/-- What follows a callback that answers: its result is written, and its error is passed on. -/
def reply (toValue : ρ → Outcome Json) : Outcome ρ → Activity
  | .ok result => .done ((toValue result).map fun j => some (.ofJson j))
  | .error e => .done (.error e)

/-- A callback runs on its parameters, and what follows it is the reply. -/
theorem start_answering (p : Codec π) (toValue : ρ → Outcome Json)
    (f : Context → π → Act (Outcome ρ)) (x : Context) :
    (answering p (fun result => (toValue result).map .ofJson) f).start x =
      (x.decodeParams p).map fun params => f x params (reply toValue) := by
  -- Writing the result as a value and then as a document is writing the document.
  have hreply : (fun outcome : Outcome ρ => (match outcome with
      | .ok result => pure (((toValue result).map LspAny.ofJson).map some)
      | .error e => pure (.error e) : Act (Outcome (Option LspAny))) .done) = reply toValue := by
    funext outcome
    cases outcome with
    | error e => rfl
    | ok result => cases h : toValue result <;> simp only [reply, h] <;> rfl
  show (x.decodeParams p).map (fun params => f x params fun outcome => _) = _
  exact congrArg (fun k => (x.decodeParams p).map fun params => f x params k) hreply

/-- A callback whose result has a type always has a document for it. -/
theorem request_eq_answering (p : Codec π) (r : Codec ρ) (f : Context → π → Act (Outcome ρ)) :
    request p r f =
      answering p (fun result => (Except.ok (r.encode result) : Outcome Json).map .ofJson) f :=
  rfl

end Entry

namespace Client

variable {π ρ : Type} (method : String) (c : Codec π) (params : π)

/-- What follows a request to the client: its answer is read as the type that is wanted. -/
def receive (r : Codec ρ) (k : Outcome ρ → Activity) : Outcome LspAny → Activity
  | .ok answer => k ((answer.decodeAs r).mapError .ofDecode)
  | .error e => k (.error e)

/-- To notify the client is to send what the codec writes. -/
theorem notify_apply (k : Outcome Unit → Activity) :
    notify method c params k = .notify method (.ofTyped c params) k :=
  rfl

/-- To ask the client is to call, and then to read what comes back. -/
theorem request_apply (r : Codec ρ) (k : Outcome ρ → Activity) :
    request method c params r k = .call method (.ofTyped c params) (receive r k) := by
  have hreceive : (fun outcome : Outcome LspAny => (match outcome with
      | .ok answer => pure ((answer.decodeAs r).mapError .ofDecode)
      | .error e => pure (.error e) : Act (Outcome ρ)) k) = receive r k := by
    funext outcome
    cases outcome <;> rfl
  exact congrArg (Activity.call method (.ofTyped c params)) hreceive

/-- What the client's result is read as. -/
theorem receive_resultOf {r : Codec ρ} {k : Outcome ρ → Activity}
    {response : ResponseMessage} {j : Json} (hr : response.toResult = .ok j) (hj : j.IsPlain) :
    receive r k (Calls.resultOf response) = k ((r.ofJson j).mapError .ofDecode) := by
  simp only [Calls.resultOf, hr, receive, LspAny.decodeAs_ofJson r hj]

/-- What a request to the client comes back with, when `sent` is what its callback has sent
meanwhile, with the parameters in `document`: the connection is lost, or the client refuses, or its
result is read. -/
inductive Returns (r : Codec ρ) (document : Option Json) (events : List Event) :
    List RpcMessage → Outcome ρ → Prop
  | lost {sent : List RpcMessage} {text : String} :
    (sent = [] ∨ ∃ n, sent = [.ofRequest (Calls.idOf n) method document]) →
    Returns r document events sent (.error (.connection text))
  | refused {n number : Nat} {response : ResponseMessage} {e : ResponseError} :
    .taken number (.response response) ∈ events → response.id = some (Calls.idOf n) →
    response.toResult = .error e →
    Returns r document events [.ofRequest (Calls.idOf n) method document] (.error (.protocol e))
  | read {n number : Nat} {response : ResponseMessage} {j : Json} {outcome : Outcome ρ} :
    .taken number (.response response) ∈ events → response.id = some (Calls.idOf n) →
    response.toResult = .ok j → (j.IsPlain → outcome = (r.ofJson j).mapError .ofDecode) →
    Returns r document events [.ofRequest (Calls.idOf n) method document] outcome

/-- What follows a request is what it comes back with. -/
theorem returns_of_resolves {r : Codec ρ} {k : Outcome ρ → Activity} {document : Option Json}
    {events : List Event} {sent : List RpcMessage} {outcome : Outcome LspAny}
    (h : Session.Resolves method document events sent outcome) :
    ∃ outcome', receive r k outcome = k outcome' ∧
      Returns method r document events sent outcome' := by
  cases h with
  | lost hsent => exact ⟨_, rfl, .lost hsent⟩
  | @answered n number response htaken hid =>
    -- The client refuses, or it answers with a document that may not decode.
    cases hr : response.toResult with
    | error e => exact ⟨.error (.protocol e), by simp only [Calls.resultOf, hr, receive],
        .refused htaken hid hr⟩
    | ok j =>
      refine ⟨((LspAny.ofJson j).decodeAs r).mapError .ofDecode,
        by simp only [Calls.resultOf, hr, receive], .read htaken hid hr fun hj => ?_⟩
      rw [LspAny.decodeAs_ofJson r hj]

end Client

/-! ## Callbacks and the client -/

namespace Session

open Event (answers sentBy)
open Json (isPlain_bool)

variable {s : Session} {events : List Event} {server : Server} {w : Work}

/-- What is passed on as a value of any kind is passed on as it is, if its integers are 32-bit
words.

* A callback that answers requests, whatever the types of its parameters and its result are, is
  followed by a reply; when it has returned a value, the answer to the request has the document of
  the value as its result.
* A notification to the client bears its method and the document of its parameters.
* So does a request to the client, and nothing else is sent until the callback gets what the
  client's result is read as, or an error of the client or of the connection.
* When a response with a result is taken while the call waits, the callback goes on with what the
result is read as, and it can do so at once. -/
theorem payload_of_run (h : server.session.Run events s) (hw : w ∈ s.works) :
    (∀ {π ρ : Type} (p : Codec π) (toValue : ρ → Outcome Json) (f : Context → π → Act (Outcome ρ)),
      (∀ x, (Entry.answering p (fun result => (toValue result).map .ofJson) f).start x =
        (x.decodeParams p).map fun params => f x params (Entry.reply toValue)) ∧
      ∀ (id : Id) (result : ρ) (j : Json), w.context.id = some id →
        w.stage = .acting (Entry.reply toValue (.ok result)) → toValue result = .ok j → j.IsPlain →
        ∀ later t, s.Run later t →
          (answers w.number (events ++ later)).Sublist [.response (.success id j)] ∧
          (w.number ∉ t.numbers → t.connection.writing = true →
            answers w.number (events ++ later) = [.response (.success id j)])) ∧
    (∀ {π : Type} (method : String) (c : Codec π) (params : π) (k : Outcome Unit → Activity),
      w.stage = .acting (Client.notify method c params k) → (c.encode params).IsPlain →
      s.Leads (fun later t => w ∈ t.works ∧ sentBy w.number later = [])
        fun first u => ∃ outcome, w.enter (.acting (k outcome)) ∈ u.works ∧
          Delivered w.number (.ofNotification method (c.encode params).asParams) first outcome) ∧
    (∀ {π ρ : Type} (method : String) (c : Codec π) (params : π) (r : Codec ρ)
        (k : Outcome ρ → Activity),
      w.stage = .acting (Client.request method c params r k) → (c.encode params).IsPlain →
      s.Leads
        (fun later t => Awaits w method (c.encode params).asParams (.ofTyped c params)
          (Client.receive r k) (sentBy w.number later) t)
        fun first u => ∃ outcome, w.enter (.acting (k outcome)) ∈ u.works ∧
          Client.Returns method r (c.encode params).asParams (events ++ first)
            (sentBy w.number first) outcome) ∧
    ∀ {ρ : Type} (n number : Nat) (method : String) (params : LspAny) (r : Codec ρ)
        (k : Outcome ρ → Activity) (response : ResponseMessage) (j : Json) (m : Move) (t : Session),
      w.stage = .calling n .waiting method params (Client.receive r k) →
      (Calls.idOf n, n) ∈ s.connection.calls.pending →
      s.move m = some (.taken number (.response response), t) →
      response.id = some (Calls.idOf n) → response.toResult = .ok j → j.IsPlain →
      t.Leads (fun later u => w ∈ u.works ∧ sentBy w.number later = [])
        (fun first u => w.enter (.acting (k ((r.ofJson j).mapError .ofDecode))) ∈ u.works ∧
          sentBy w.number first = []) ∧
      ∃ m u, t.move m = some (.quiet, u) ∧
        w.enter (.acting (k ((r.ofJson j).mapError .ofDecode))) ∈ u.works := by
  refine ⟨fun p toValue f => ⟨Entry.start_answering p toValue f, ?answers⟩, ?notifies, ?requests,
    ?released⟩
  case answers =>
    intro id result j hid hs hj hplain later t hlater
    -- The document goes into a value and comes out again for the answer.
    have hs : w.stage = .acting (.done (.ok (some (.ofJson j)))) := by
      rw [hs, Entry.reply, hj]
      rfl
    have hresponse : (DispatchResult.ofOutcome (.ok (some (.ofJson j)))).response id
        w.context.method = .success id j := by
      show ResponseMessage.success id (LspAny.ofJson j).toJson = _
      rw [LspAny.toJson_ofJson_of_isNarrow hplain.wellFormed hplain.isNarrow]
    rw [← hresponse]
    exact answers_of_done h hw hid hs hlater
  case notifies =>
    intro π method c params k hs hplain
    rw [Client.notify_apply] at hs
    rw [← LspAny.asParams_ofTyped hplain]
    exact leads_of_notify h hw hs
  case requests =>
    intro π ρ method c params r k hs hplain
    rw [Client.request_apply] at hs
    rw [← LspAny.asParams_ofTyped hplain]
    -- What the call comes to, `Client.receive` turns into what the request comes back with.
    refine (leads_of_call h hw hs).mono (fun _ _ hp => hp) fun first u hdone => ?_
    obtain ⟨outcome, hin, hresolves⟩ := hdone
    obtain ⟨outcome', he, hreturns⟩ := Client.returns_of_resolves method hresolves
    rw [he] at hin
    exact ⟨outcome', hin, hreturns⟩
  case released =>
    intro ρ n number method params r k response j m t hs hn hm hid hj hplain
    have hreceive : Client.receive r k (Calls.resultOf response) =
        k ((r.ofJson j).mapError .ofDecode) := by
      simp only [Calls.resultOf, hj, Client.receive, LspAny.decodeAs_ofJson r hplain]
    obtain ⟨hanswer, hworks⟩ := answer?_of_taken h hm hid hn
    rw [← hreceive]
    exact leads_of_answer (h.next m hm) (hworks ▸ hw) hs hanswer

/-- The reader takes the message in a frame that has come and that it can read. -/
theorem step_reader_of_body {body : String} {m : RpcMessage} (hp : s.phase = .reading)
    (hi : s.input = []) (hf : (Frame.ofContent body).IsWritable s.maxMessageSize)
    (hm : RpcMessage.ofBody body = .ok m) :
    (s.receive (Frame.ofContent body).bytes).step .reader = some (.taken s.taken m, s.take m) := by
  -- There is nothing before the frame and nothing behind it.
  have hread : Frame.read s.maxMessageSize (!s.inputEnded)
      (s.input ++ (Frame.ofContent body).bytes) = .frame (Frame.ofContent body) [] := by
    have h := Frame.read_bytes_append hf (!s.inputEnded) []
    rw [List.append_nil] at h
    rw [hi, List.nil_append, h]
  have hs : { s with input := [], phase := .reading } = s := by rw [← hi, ← hp]
  simp only [step, stepReader, receive, hp, read, hread]
  rw [show RpcMessage.ofBody (Frame.ofContent body).content = .ok m from hm]
  exact congrArg (fun u : Session => some (Event.taken s.taken m, u.take m)) hs

/-- The only job takes a step that does not finish it. -/
theorem run_of_job {w w' : Work} {event : Event} {c : Connection} (hj : s.jobs = [w])
    (ha : w.advance s.connection = some (event, w', c)) (ho : w'.isOver = false)
    (hn : w'.number = w.number) : s.Run [event] { s with connection := c, jobs := [w'] } := by
  refine .single (.step (.job w.number)) ?_
  simp [move, step, stepJob, hj, ha, putJob, ho, hn]

/-- A callback that tells the client something, and answers with what the client says to its
question. -/
def exampleTalk (_ : Context) (_ : Unit) : Act (Outcome Bool) :=
  (Client.notify "tell" Codec.bool true).andThen fun _ =>
    Client.request "ask" Codec.bool false Codec.bool

/-- A server with that callback. -/
def exampleTalker : Server where
  handler :=
    { entries := .ofList [("talk", .request Codec.ignored Codec.bool exampleTalk)]
      life := { state := .initialized } }

/-- The request for the callback, and what the client says to its question. -/
def exampleWords : String × String :=
  ("\x7b\"jsonrpc\":\"2.0\",\"id\":7,\"method\":\"talk\"\x7d",
    "\x7b\"jsonrpc\":\"2.0\",\"id\":1,\"result\":true\x7d")

/-- Whether something is the request of the example. -/
def exampleWords.isRequest : Except ResponseMessage RpcMessage → Bool
  | .ok (.request ⟨version, id, method, none⟩) =>
    version == protocolVersion && id == .int 7 && method == "talk"
  | _ => false

/-- Whether something is the response of the example. -/
def exampleWords.isResponse : Except ResponseMessage RpcMessage → Bool
  | .ok (.response ⟨version, id, some (.bool true), none⟩) =>
    version == protocolVersion && id == some (.int 1)
  | _ => false

/-- The first word is a request and the second one a response to the first call. -/
private theorem ofBody_exampleWords :
    RpcMessage.ofBody exampleWords.1 = .ok (.request { id := .int 7, method := "talk" }) ∧
      RpcMessage.ofBody exampleWords.2 = .ok (.response (.success (.int 1) (.bool true))) := by
  have h : exampleWords.isRequest (RpcMessage.ofBody exampleWords.1) = true ∧
      exampleWords.isResponse (RpcMessage.ofBody exampleWords.2) = true := by decide +kernel
  -- The bodies are decoded once, in `h`: from here on only the results matter.
  generalize RpcMessage.ofBody exampleWords.1 = request at h
  generalize RpcMessage.ofBody exampleWords.2 = response at h
  obtain ⟨hq, hr⟩ := h
  constructor
  · unfold exampleWords.isRequest at hq
    split at hq
    · simp only [Bool.and_eq_true, beq_iff_eq] at hq
      obtain ⟨⟨rfl, rfl⟩, rfl⟩ := hq
      rfl
    · cases hq
  · unfold exampleWords.isResponse at hr
    split at hr
    · simp only [Bool.and_eq_true, beq_iff_eq] at hr
      obtain ⟨rfl, rfl⟩ := hr
      rfl
    · cases hr

/-- The work on the request at a stage. -/
def exampleWork (stage : Stage) : Work := ⟨0, { method := "talk", id := some (.int 7) }, stage⟩

/-- The session with that work; `taken` messages have been taken. -/
def exampleTalking (taken : Nat) (calls : Calls) (outgoing : List RpcMessage) (stage : Stage) :
    Session :=
  { exampleTalker.session with
    taken
    connection := { handler := exampleTalker.handler, calls, inFlight := [(.int 7, 0)], outgoing }
    jobs := [exampleWork stage] }

/-- What follows the callback. -/
def exampleReply : Outcome Bool → Activity :=
  Entry.reply fun result => .ok (Codec.bool.encode result)

/-- The question of the callback. -/
def exampleAsking : Activity := Client.request "ask" Codec.bool false Codec.bool exampleReply

/-- The notification of the callback, and what follows it. -/
def exampleTelling : Activity :=
  Client.notify "tell" Codec.bool true fun
    | .ok _ => exampleAsking
    | .error e => exampleReply (.error e)

/-- The call that the question is. -/
def exampleCall (stage : CallStage) : Stage :=
  .calling 0 stage "ask" (.ofTyped Codec.bool false) (Client.receive Codec.bool exampleReply)

/-- The messages of the callback. -/
def exampleSent : RpcMessage × RpcMessage :=
  (.ofNotification "tell" (some (.bool true)), .ofRequest (.int 1) "ask" (some (.bool false)))

/-- The table of calls while the call waits, and with its response. -/
def exampleCalls : Calls × Calls :=
  ({ taken := 1, pending := [(.int 1, 0)] },
    { taken := 1, answers := [(0, .success (.int 1) (.bool true))] })

/-- The callback is about to notify the client. -/
def exampleBeforeTelling : Session := exampleTalking 1 {} [] (.acting exampleTelling)

/-- It is about to ask. -/
def exampleBeforeAsking : Session := exampleTalking 1 {} [exampleSent.1] (.acting exampleAsking)

/-- The call waits. -/
def exampleWaiting : Session :=
  exampleTalking 1 exampleCalls.1 [exampleSent.1, exampleSent.2] (exampleCall .waiting)

/-- The bytes of the response have come. -/
def exampleBeforeReading : Session :=
  exampleWaiting.receive (Frame.ofContent exampleWords.2).bytes

/-- The response is taken. -/
def exampleAfterReading : Session :=
  exampleTalking 2 exampleCalls.2 [exampleSent.1, exampleSent.2] (exampleCall .waiting)

/-- The callback has returned. -/
def exampleBeforeAnswer : Session :=
  exampleTalking 2 exampleCalls.2 [exampleSent.1, exampleSent.2]
    (.acting (exampleReply (.ok true)))

/-- A step of the work is a step of the session that holds no other work. -/
private theorem run_exampleTalking {taken : Nat} {calls calls' : Calls}
    {outgoing outgoing' : List RpcMessage} {stage stage' : Stage} {event : Event}
    (ha : (exampleWork stage).advance (exampleTalking taken calls outgoing stage).connection =
      some (event, exampleWork stage',
        (exampleTalking taken calls' outgoing' stage').connection))
    (ho : (exampleWork stage').isOver = false) :
    (exampleTalking taken calls outgoing stage).Run [event]
      (exampleTalking taken calls' outgoing' stage') :=
  run_of_job rfl ha ho rfl

/-- The callback starts by telling the client something. -/
private theorem start_exampleTalk :
    (Entry.request Codec.ignored Codec.bool exampleTalk).start (exampleWork .arrived).context =
      .ok exampleTelling := by
  rw [Entry.request_eq_answering, Entry.start_answering]
  refine congrArg (fun k => Except.ok (Client.notify "tell" Codec.bool true k)) ?_
  funext told
  cases told <;> rfl

/-- The session comes to the point where the callback is about to tell. -/
theorem run_exampleBeforeTelling :
    ∃ events, exampleTalker.session.Run events exampleBeforeTelling := by
  have hreads := step_reader_of_body (s := exampleTalker.session) rfl rfl
    (Frame.isWritable_ofContent (by decide +kernel) (by decide +kernel)) ofBody_exampleWords.1
  -- The request arrives, its callback is found, and it starts.
  have hchooses : (exampleTalking 1 {} [] .arrived).Run _ (exampleTalking 1 {} []
      (.chosen (.request Codec.ignored Codec.bool exampleTalk))) :=
    run_exampleTalking rfl rfl
  have hstarts : (exampleTalking 1 {} []
      (.chosen (.request Codec.ignored Codec.bool exampleTalk))).Run [.invoked 0]
      exampleBeforeTelling := by
    have hstart := start_exampleTalk
    simp only [exampleWork] at hstart
    exact run_exampleTalking (by simp only [exampleWork, Work.advance, hstart]; rfl) rfl
  have harrives : exampleTalker.session.Run _ (exampleTalking 1 {} [] .arrived) :=
    (Run.single (.receive (Frame.ofContent exampleWords.1).bytes) rfl).trans
      (.single (.step .reader) hreads)
  exact ⟨_, harrives.trans (hchooses.trans hstarts)⟩

/-- It tells, and is about to ask. -/
theorem run_exampleBeforeAsking :
    exampleBeforeTelling.Run [.queued (.callback 0) exampleSent.1] exampleBeforeAsking :=
  run_exampleTalking rfl rfl

/-- It asks, and its answer has come in but was not read. -/
theorem run_exampleBeforeReading :
    ∃ events, exampleBeforeAsking.Run events exampleBeforeReading := by
  -- A call takes a number, is listed, passes and is sent; then its answer comes in.
  have hcalls : exampleBeforeAsking.Run [.quiet]
      (exampleTalking 1 { taken := 1 } [exampleSent.1] (exampleCall .numbered)) := by
    rw [exampleBeforeAsking, exampleAsking, Client.request_apply]
    exact run_exampleTalking rfl rfl
  have hlists : (exampleTalking 1 { taken := 1 } [exampleSent.1] (exampleCall .numbered)).Run
      [.quiet] (exampleTalking 1 exampleCalls.1 [exampleSent.1] (exampleCall .enlisted)) :=
    run_exampleTalking rfl rfl
  have hpasses : (exampleTalking 1 exampleCalls.1 [exampleSent.1] (exampleCall .enlisted)).Run
      [.quiet] (exampleTalking 1 exampleCalls.1 [exampleSent.1] (exampleCall .unsent)) :=
    run_exampleTalking rfl rfl
  have hsends : (exampleTalking 1 exampleCalls.1 [exampleSent.1] (exampleCall .unsent)).Run _
      exampleWaiting :=
    run_exampleTalking rfl rfl
  have hreceives : exampleWaiting.Run _ exampleBeforeReading :=
    .single (.receive (Frame.ofContent exampleWords.2).bytes) rfl
  exact ⟨_, hcalls.trans (hlists.trans (hpasses.trans (hsends.trans hreceives)))⟩

/-- The reader takes the answer. -/
theorem step_exampleBeforeReading : exampleBeforeReading.step .reader =
    some (.taken 1 (.response (.success (.int 1) (.bool true))), exampleAfterReading) :=
  step_reader_of_body (s := exampleWaiting) rfl rfl
    (Frame.isWritable_ofContent (by decide +kernel) (by decide +kernel)) ofBody_exampleWords.2

/-- The callback gets it. -/
theorem run_exampleBeforeAnswer : exampleAfterReading.Run [.quiet] exampleBeforeAnswer :=
  run_exampleTalking rfl rfl

/-- The client is told `true` and asked `false`; the callback gets the `true` that is the client's
answer, and the request is answered with it. -/
theorem payload_of_exampleTalk :
    exampleBeforeTelling.Leads
      (fun later t => exampleWork (.acting exampleTelling) ∈ t.works ∧ sentBy 0 later = [])
      (fun first _ => ∃ outcome, Delivered 0 exampleSent.1 first outcome) ∧
    (∃ events, exampleBeforeAsking.Leads
      (fun later _ => sentBy 0 later = [] ∨
        ∃ n, sentBy 0 later = [.ofRequest (Calls.idOf n) "ask" (some (.bool false))])
      (fun first u => ∃ outcome, exampleWork (.acting (exampleReply outcome)) ∈ u.works ∧
        Client.Returns "ask" Codec.bool (some (.bool false)) (events ++ first) (sentBy 0 first)
          outcome)) ∧
    (exampleAfterReading.Leads
        (fun later u => exampleWork (exampleCall .waiting) ∈ u.works ∧ sentBy 0 later = [])
        (fun first u => exampleWork (.acting (exampleReply (.ok true))) ∈ u.works ∧
          sentBy 0 first = []) ∧
      ∃ m u, exampleAfterReading.move m = some (.quiet, u) ∧
        exampleWork (.acting (exampleReply (.ok true))) ∈ u.works) ∧
    ∃ events, ∀ later t, exampleBeforeAnswer.Run later t → 0 ∉ t.numbers →
      t.connection.writing = true →
      answers 0 (events ++ later) = [.response (.success (.int 7) (.bool true))] := by
  obtain ⟨before, htelling⟩ := run_exampleBeforeTelling
  obtain ⟨between, hreads⟩ := run_exampleBeforeReading
  obtain ⟨told, hasking⟩ : ∃ events, exampleTalker.session.Run events exampleBeforeAsking :=
    ⟨_, htelling.trans run_exampleBeforeAsking⟩
  have hreading := hasking.trans hreads
  obtain ⟨all, hreturned⟩ : ∃ events, exampleTalker.session.Run events exampleBeforeAnswer :=
    ⟨_, (hreading.next (.step .reader) step_exampleBeforeReading).trans run_exampleBeforeAnswer⟩
  -- One part for each way in which something crosses: a notification, a request, its result, and
  -- the answer.
  refine ⟨?_, ⟨told, ?_⟩, ?_, ⟨all, fun later t hlater hn hw => ?_⟩⟩
  · obtain ⟨-, hnotify, -⟩ := payload_of_run htelling (List.mem_singleton_self _)
    refine (hnotify "tell" Codec.bool true _ rfl (isPlain_bool true)).mono (fun _ _ hp => hp) ?_
    exact fun _ _ ⟨outcome, _, hd⟩ => ⟨outcome, hd⟩
  · obtain ⟨-, -, hrequest, -⟩ := payload_of_run hasking (List.mem_singleton_self _)
    exact (hrequest "ask" Codec.bool false Codec.bool _ rfl (isPlain_bool false)).mono
      (fun _ _ hp => hp.sent_cases) fun _ _ hdone => hdone
  · obtain ⟨-, -, -, hreturn⟩ := payload_of_run hreading (List.mem_singleton_self _)
    exact hreturn 0 1 "ask" _ Codec.bool exampleReply _ (.bool true) (.step .reader) _ rfl
      (List.mem_singleton_self _) step_exampleBeforeReading rfl rfl (isPlain_bool true)
  · obtain ⟨hreplied, -⟩ := payload_of_run hreturned (List.mem_singleton_self _)
    exact ((hreplied Codec.ignored (fun result => .ok (Codec.bool.encode result)) exampleTalk).2
      (.int 7) true (.bool true) rfl rfl rfl (isPlain_bool true) later t hlater).2 hn hw

end Session

end LanguageServer
