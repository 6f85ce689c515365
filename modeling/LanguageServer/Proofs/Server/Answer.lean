import LanguageServer.Proofs.Server.Accounts
import LanguageServer.Proofs.Server.Intake

/-!
# Every request is answered once

`Session.answers_of_run` says which responses a session queues, in whatever order its parties take
their steps and whatever its callbacks do.  A request gets the answer that the conclusion of its
handling asks for, once; nothing else that is taken gets any; and a frame whose body is no message
gets the answer that says so.
-/

namespace LanguageServer

open Event (arrivals story stream)

/-- The conclusion that a deed is. -/
def Deed.conclusion? : Deed → Option Conclusion
  | .ended _ conclusion => some conclusion
  | _ => none

/-- The message that a deed has queued or given up. -/
def Deed.answer? : Deed → Option RpcMessage
  | .answered m => some m
  | _ => none

/-- Whether a callback has panicked. -/
def Conclusion.isPanic : Conclusion → Bool
  | .panicked _ => true
  | .returned _ => false

namespace Event

/-- The conclusion of the handling of a message in an event. -/
def conclusionOf? (number : Nat) : Event → Option Conclusion
  | .returned k _ result => if k = number then some (.returned result) else none
  | .panicked k _ text => if k = number then some (.panicked text) else none
  | _ => none

/-- What is queued on account of a message in an event. -/
def answerTo? (number : Nat) : Event → Option RpcMessage
  | .queued (.answer k) m => if k = number then some m else none
  | _ => none

/-- The conclusions of the handling of a message, in order. -/
def conclusions (number : Nat) (events : List Event) : List Conclusion :=
  events.filterMap (conclusionOf? number)

/-- What is queued on account of a message, in order. -/
def answers (number : Nat) (events : List Event) : List RpcMessage :=
  events.filterMap (answerTo? number)

/-- What can be seen of the story of a message can be seen of the events that tell it. -/
theorem filterMap_story {α : Type} (number : Nat) (f : Deed → Option α) (events : List Event) :
    (story number events).filterMap f =
      events.filterMap fun e => e.deed?.bind fun p => if p.1 = number then f p.2 else none := by
  simp only [story, deeds, List.filterMap_map, List.filterMap_filter, List.filterMap_filterMap,
    decide_eq_true_eq, Function.comp]

/-- The conclusions of the handling of a message are those of its story. -/
theorem conclusions_eq (number : Nat) (events : List Event) :
    conclusions number events = (story number events).filterMap Deed.conclusion? := by
  rw [filterMap_story, conclusions]
  congr 1
  funext e
  cases e with
  | queued sender m | dropped sender m =>
    cases sender <;> simp [conclusionOf?, deed?, Deed.conclusion?]
  | _ => simp [conclusionOf?, deed?, Deed.conclusion?]

/-- Unless it gives a message up, an event queues what the story of a message says. -/
private theorem answerTo?_eq {e : Event} (h : e.isDropped = false) (number : Nat) :
    answerTo? number e =
      e.deed?.bind fun p => if p.1 = number then Deed.answer? p.2 else none := by
  cases e with
  | queued sender m => cases sender <;> simp [answerTo?, deed?, Deed.answer?]
  | dropped sender m => simp [isDropped] at h
  | _ => simp [answerTo?, deed?, Deed.answer?]

/-- As long as nothing is given up, what is queued on account of a message is what its story says.
-/
theorem answers_eq {events : List Event} (h : ∀ e ∈ events, e.isDropped = false) (number : Nat) :
    answers number events = (story number events).filterMap Deed.answer? := by
  rw [filterMap_story, answers]
  induction events with
  | nil => rfl
  | cons e events ih =>
    rw [List.filterMap_cons, List.filterMap_cons, answerTo?_eq (h e List.mem_cons_self),
      ih fun e he => h e (List.mem_cons_of_mem _ he)]

/-- No more is queued on account of a message than its story says. -/
theorem answers_sublist (number : Nat) (events : List Event) :
    (answers number events).Sublist ((story number events).filterMap Deed.answer?) := by
  rw [filterMap_story, answers]
  induction events with
  | nil => exact .slnil
  | cons e events ih =>
    rw [List.filterMap_cons, List.filterMap_cons]
    cases hd : e.isDropped with
    | false =>
      rw [← answerTo?_eq hd]
      cases answerTo? number e with
      | none => exact ih
      | some m => exact ih.cons_cons m
    -- A message that is given up is in the story, but it is not queued.
    | true =>
      have hn : answerTo? number e = none := by cases e <;> simp_all [isDropped, answerTo?]
      rw [hn]
      cases e.deed?.bind fun p => if p.1 = number then Deed.answer? p.2 else none with
      | none => exact ih
      | some m => exact ih.cons m

end Event

namespace Session

open Event (conclusions answers)

variable {s t : Session} {event : Event} {events : List Event} {timeout : Option Nat}

/-- How far the story of a message can be. -/
theorem Accounts.story_cases (ha : s.Accounts timeout events) {number : Nat} {m : RpcMessage}
    {x : Context} (hm : (number, m) ∈ arrivals events) (hx : m.context? timeout = some x) :
    (number ∈ s.numbers ∧ (story number events = [] ∨ story number events = [.begun x] ∨
      ∃ c, story number events = [.begun x, .ended x c])) ∨
    ∃ c, story number events = x.story c := by
  -- As long as there is work on the message, the stage of it says how far the story is.
  by_cases hn : number ∈ s.numbers
  · obtain ⟨w, hw, rfl⟩ := List.mem_map.1 hn
    have ht := ha.tells w hw
    obtain ⟨m', hm', hx'⟩ := ha.known w hw
    rw [ha.arrival_unique hm' hm, hx, Option.some.injEq] at hx'
    rw [Work.Tells, ← hx'] at ht
    cases hs : w.stage with
    | arrived => exact .inl ⟨hn, .inl (by simpa [hs] using ht)⟩
    | chosen _ | acting _ | calling _ _ _ _ _ | decided _ =>
      exact .inl ⟨hn, .inr (.inl (by simpa [hs] using ht))⟩
    | handled _ | settled _ =>
      rw [hs] at ht
      obtain ⟨c, hc, -⟩ := ht
      exact .inl ⟨hn, .inr (.inr ⟨c, hc⟩)⟩
    | finished => exact .inr (by simpa [hs] using ht)
  · have ht := ha.told number m hm hn
    rw [IsTold, hx] at ht
    exact .inr ht

/-- Nothing is given up as long as messages are written. -/
theorem Change.writing (h : s.Change event t) (hw : t.connection.writing = true) :
    s.connection.writing = true ∧ event.isDropped = false := by
  cases h with
  | aside _ _ _ _ ha _ => exact ha hw
  | queues _ _ hc _ _ _ _ _ | starts _ hc _ _ _ => exact ⟨hc ▸ hw, rfl⟩
  | resolves _ | picksUp _ _ => exact ⟨hw, rfl⟩
  | workerSteps _ ha | jobSteps _ ha =>
    have hq := (Work.passage_of_advance ha).2
    have hs : s.connection.writing = true := hq.writing_eq ▸ hw
    refine ⟨hs, ?_⟩
    cases hd : event.isDropped with
    | false => rfl
    -- Whoever gives a message up finds that nothing is written any more.
    | true => simp [hq.writing_of_dropped hd] at hs

/-- A callback queues no responses. -/
theorem Change.isResponse_of_callback (h : s.Change event t) {number : Nat} {m : RpcMessage}
    (he : event = .queued (.callback number) m) : m.isResponse = false := by
  subst he
  cases h with
  | aside _ ha _ _ _ _ => simp [Event.isAside] at ha
  | workerSteps _ ha | jobSteps _ ha =>
    cases (Work.passage_of_advance ha).1 with
    | goesOn _ _ hc => simpa [Event.isOfCallback] using hc
    | ends _ hd | answers _ hd => simp [Event.deed?] at hd

/-- Nothing was given up if messages are still written. -/
theorem isDropped_of_run {server : Server} (h : server.session.Run events s)
    (hw : s.connection.writing = true) : ∀ e ∈ events, e.isDropped = false := by
  induction h with
  | start => simp
  | next m _ hm ih =>
    obtain ⟨hs, hd⟩ := (change_of_move hm).writing hw
    intro e he
    rcases List.mem_append.1 he with he | he
    · exact ih hs e he
    · rwa [List.mem_singleton.1 he]

/-- No callback has queued a response. -/
theorem isResponse_of_run {server : Server} (h : server.session.Run events s) {number : Nat}
    {m : RpcMessage} (hm : .queued (.callback number) m ∈ events) : m.isResponse = false := by
  induction h with
  | start => simp at hm
  | next _ _ hmove ih =>
    rcases List.mem_append.1 hm with hm | hm
    · exact ih hm
    · exact (change_of_move hmove).isResponse_of_callback (List.mem_singleton.1 hm).symm

/-- The messages that arrive are those that are taken. -/
theorem mem_arrivals {number : Nat} {m : RpcMessage} :
    (number, m) ∈ arrivals events ↔ Event.taken number m ∈ events := by
  simp only [arrivals, List.mem_filterMap]
  constructor
  · rintro ⟨e, he, ha⟩
    cases e <;> simp_all [Event.arrival?]
  · exact fun h => ⟨_, h, rfl⟩

/-- A request is answered after its handling has come to a conclusion, and as the conclusion
asks. -/
theorem Accounts.answer_of_request (ha : s.Accounts timeout events) {number : Nat}
    {q : RequestMessage} (hm : (number, .request q) ∈ arrivals events) :
    (conclusions number events).length ≤ 1 ∧
    ((number ∈ s.numbers ∧ (story number events).filterMap Deed.answer? = []) ∨
      (conclusions number events).length = 1 ∧ (story number events).filterMap Deed.answer? =
        (conclusions number events).map fun c => .response (c.answer q.id q.method)) := by
  rw [Event.conclusions_eq]
  -- Taken, begun, concluded, or answered as well: the four stories a request can have.
  rcases ha.story_cases hm rfl with ⟨hn, h | h | ⟨c, h⟩⟩ | ⟨c, h⟩ <;> rw [h]
  · exact ⟨Nat.zero_le 1, .inl ⟨hn, rfl⟩⟩
  · exact ⟨Nat.zero_le 1, .inl ⟨hn, rfl⟩⟩
  · exact ⟨Nat.le_refl 1, .inl ⟨hn, rfl⟩⟩
  · exact ⟨Nat.le_refl 1, .inr ⟨rfl, rfl⟩⟩

/-- A message that is no request has no answer. -/
theorem Accounts.no_answer (ha : s.Accounts timeout events) {number : Nat} {m : RpcMessage}
    (hm : (number, m) ∈ arrivals events) (hq : ∀ q, m ≠ .request q) :
    (story number events).filterMap Deed.answer? = [] := by
  cases m with
  | request q => exact absurd rfl (hq q)
  | notification q =>
    rcases ha.story_cases hm rfl with ⟨-, h | h | ⟨c, h⟩⟩ | ⟨c, h⟩ <;> rw [h] <;> rfl
  | response r =>
    -- A response brings no work, so nothing happens to it.
    have hn : number ∉ s.numbers := fun hn => by
      obtain ⟨w, hw, rfl⟩ := List.mem_map.1 hn
      obtain ⟨m', hm', hx⟩ := ha.known w hw
      rw [← ha.arrival_unique hm hm'] at hx
      simp [RpcMessage.context?] at hx
    have ht : story number events = [] := ha.told number _ hm hn
    rw [ht]
    rfl

/-- Only a request that was taken is answered. -/
theorem Accounts.request_of_answer (ha : s.Accounts timeout events) {number : Nat} {r : RpcMessage}
    (hr : Event.queued (.answer number) r ∈ events) :
    ∃ q, (number, .request q) ∈ arrivals events := by
  have hs : r ∈ (story number events).filterMap Deed.answer? :=
    (Event.answers_sublist number events).subset
      (List.mem_filterMap.2 ⟨_, hr, by simp [Event.answerTo?]⟩)
  -- There is a story of messages that were taken only.
  have hlt : number < s.taken := by
    refine Nat.lt_of_not_le fun hle => ?_
    simp [ha.silent number hle] at hs
  have hmem : number ∈ (arrivals events).map (·.1) := by
    rwa [ha.numbered, List.mem_range]
  obtain ⟨⟨_, m⟩, hm, rfl⟩ := List.mem_map.1 hmem
  cases m with
  | request q => exact ⟨q, hm⟩
  | notification _ | response _ =>
    rw [ha.no_answer hm (by simp)] at hs
    simp at hs

/-- A request is answered with what its handling has come to: at most once, and exactly once when no
work on it is left and messages are still written. -/
theorem answers_of_request {server : Server} (h : server.session.Run events s) {number : Nat}
    {q : RequestMessage} (hq : Event.taken number (.request q) ∈ events) :
    (conclusions number events).length ≤ 1 ∧
    (answers number events).Sublist
      ((conclusions number events).map fun c => .response (c.answer q.id q.method)) ∧
    (number ∉ s.numbers →
      (conclusions number events).length = 1 ∧
      (s.connection.writing = true → answers number events =
        (conclusions number events).map fun c => .response (c.answer q.id q.method))) := by
  obtain ⟨hle, hstory⟩ := (accounts_of_run h).answer_of_request (mem_arrivals.2 hq)
  have hsub := Event.answers_sublist number events
  refine ⟨hle, ?_, fun hn => ?_⟩
  · rcases hstory with ⟨-, hnone⟩ | ⟨-, hall⟩
    · rw [hnone] at hsub
      exact hsub.trans (List.nil_sublist _)
    · rwa [hall] at hsub
  · rcases hstory with ⟨hin, -⟩ | ⟨hone, hall⟩
    · exact absurd hin hn
    · -- Nothing was given up, so that what the story says was queued.
      refine ⟨hone, fun hw => ?_⟩
      rw [Event.answers_eq (isDropped_of_run h hw), hall]

/-- The responses of a session.  A request is answered with what its handling has come to: at most
once, and exactly once when no work on it is left and messages are still written.  Nothing is
answered on account of other messages.  All other responses turn down a frame that holds no
message. -/
theorem answers_of_run {server : Server} (h : server.session.Run events s) :
    (∀ number q, Event.taken number (.request q) ∈ events →
      (conclusions number events).length ≤ 1 ∧
      (answers number events).Sublist
        ((conclusions number events).map fun c => .response (c.answer q.id q.method)) ∧
      (number ∉ s.numbers →
        (conclusions number events).length = 1 ∧
        (s.connection.writing = true → answers number events =
          (conclusions number events).map fun c => .response (c.answer q.id q.method)))) ∧
    (∀ number m, Event.taken number m ∈ events → (∀ q, m ≠ .request q) →
      answers number events = []) ∧
    ∀ sender r, Event.queued sender (.response r) ∈ events →
      (∃ number q, sender = .answer number ∧ Event.taken number (.request q) ∈ events) ∨
      sender = .reader ∧ ∃ frame ∈ (Frame.readAll server.maxMessageSize (stream events)).1,
        RpcMessage.ofBody frame.content = .error r := by
  have ha := accounts_of_run h
  refine ⟨fun number q hq => ?request, fun number m hm hq => ?other, fun sender r hr => ?queued⟩
  case request =>
    exact answers_of_request h hq
  case other =>
    have hs := Event.answers_sublist number events
    rw [ha.no_answer (mem_arrivals.2 hm) hq] at hs
    exact List.sublist_nil.1 hs
  case queued =>
    cases sender with
    | answer number =>
      obtain ⟨q, hq⟩ := ha.request_of_answer hr
      exact .inl ⟨number, q, rfl, mem_arrivals.1 hq⟩
    -- No callback queues a response.
    | callback number => simpa [RpcMessage.isResponse] using isResponse_of_run h hr
    | reader =>
      have hmem : Except.error r ∈ Event.readings events :=
        List.mem_filterMap.2 ⟨_, hr, rfl⟩
      -- What the reader answers by itself are frames that hold no message.
      obtain ⟨frame, hf, he⟩ := List.mem_map.1 ((readings_of_run h).subset hmem)
      exact .inr ⟨rfl, frame, hf, he⟩

/-- A request whose callback panics, one of a method that is not known, and a body that holds no
message. -/
def exampleBodies : List String :=
  ["\x7b\"jsonrpc\":\"2.0\",\"id\":7,\"method\":\"boom\"\x7d",
    "\x7b\"jsonrpc\":\"2.0\",\"id\":\"x\",\"method\":\"bang\"\x7d", "["]

/-- Whether a conclusion is that there is no callback. -/
def isUnknown : Conclusion → Bool
  | .returned .methodNotFound => true
  | _ => false

/-- Both requests are answered once: the first with an internal error under its identifier, the
other because its method is not known. -/
theorem answers_of_exampleRun :
    (∃ q, Event.taken 0 (.request q) ∈ (exampleRun exampleBodies).1 ∧
      0 ∉ (exampleRun exampleBodies).2.numbers ∧
      ∃ text, answers 0 (exampleRun exampleBodies).1 =
        [.response ((Conclusion.panicked text).answer q.id q.method)] ∧
      ((Conclusion.panicked text).answer q.id q.method).id = some q.id ∧
      ((Conclusion.panicked text).answer q.id q.method).error =
        some { code := -32603, message := q.method ++ " handler panicked" }) ∧
    ∃ q, Event.taken 1 (.request q) ∈ (exampleRun exampleBodies).1 ∧
      1 ∉ (exampleRun exampleBodies).2.numbers ∧
      answers 1 (exampleRun exampleBodies).1 =
        [.response (DispatchResult.methodNotFound.response q.id q.method)] := by
  have hw : (exampleRun exampleBodies).2.connection.writing = true := by decide +kernel
  -- What the general statement says of a message that is taken as a request and is done.
  have answered (number : Nat)
      (hpos : 0 < ((arrivals (exampleRun exampleBodies).1).filter fun p =>
        p.1 == number && p.2.isRequest).length)
      (hn : number ∉ (exampleRun exampleBodies).2.numbers) :
      ∃ q c, Event.taken number (.request q) ∈ (exampleRun exampleBodies).1 ∧
        conclusions number (exampleRun exampleBodies).1 = [c] ∧
        answers number (exampleRun exampleBodies).1 = [.response (c.answer q.id q.method)] := by
    obtain ⟨⟨k, m⟩, hp⟩ := List.exists_mem_of_length_pos hpos
    simp only [List.mem_filter, Bool.and_eq_true, beq_iff_eq] at hp
    obtain ⟨hm, rfl, hr⟩ := hp
    cases m with
    | notification _ | response _ => simp [RpcMessage.isRequest] at hr
    | request q =>
      have hq := mem_arrivals.1 hm
      obtain ⟨hone, ha⟩ := ((answers_of_run (run_exampleRun exampleBodies)).1 k q hq).2.2 hn
      obtain ⟨c, hc⟩ := List.length_eq_one_iff.1 hone
      exact ⟨q, c, hq, hc, by rw [ha hw, hc]; rfl⟩
  constructor
  · have hn : 0 ∉ (exampleRun exampleBodies).2.numbers := by decide +kernel
    have hpanic : (conclusions 0 (exampleRun exampleBodies).1).all Conclusion.isPanic = true := by
      decide +kernel
    obtain ⟨q, c, hq, hc, ha⟩ := answered 0 (by decide +kernel) hn
    rw [hc] at hpanic
    cases c with
    | panicked text =>
      refine ⟨q, hq, hn, text, ha, Conclusion.answer_id _ q.id q.method, ?_⟩
      rw [Conclusion.answer_panicked, Work.panicAnswer_error]
    | returned _ => simp [Conclusion.isPanic] at hpanic
  · have hn : 1 ∉ (exampleRun exampleBodies).2.numbers := by decide +kernel
    have hknown : (conclusions 1 (exampleRun exampleBodies).1).all isUnknown = true := by
      decide +kernel
    obtain ⟨q, c, hq, hc, ha⟩ := answered 1 (by decide +kernel) hn
    rw [hc] at hknown
    cases c with
    | panicked _ => simp [isUnknown] at hknown
    | returned result =>
      cases result with
      | methodNotFound => exact ⟨q, hq, hn, ha⟩
      | success _ | failure _ | invalidParams _ => simp [isUnknown] at hknown

end Session

end LanguageServer
