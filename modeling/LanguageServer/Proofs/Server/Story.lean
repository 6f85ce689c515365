import LanguageServer.Proofs.Server.Stride

/-!
# What becomes of a message

`Event.deeds` picks out of the events of a session what happens to messages: each is handed to the
handler, its handling comes to a conclusion, and a request is answered.  `Work.Tells` says how much
of that has happened when the work on a message is at a stage, and `Work.Passage` says what a step
of the work does, as far as it shows; `Work.Passage.tells` puts the two together.
-/

namespace LanguageServer

/-! ## Deeds -/

/-- How the handling of a message has ended. -/
inductive Conclusion where
  | returned (result : DispatchResult)
  | panicked (text : String)

/-- The answer to a request after a conclusion; a panic is an internal error. -/
def Conclusion.answer (id : Id) (method : String) : Conclusion → ResponseMessage
  | .returned result => result.response id method
  | .panicked _ => .failure (some id) (.of .internalError (method ++ " handler panicked"))

/-- A result is answered under the identifier of the request. -/
theorem DispatchResult.response_id (r : DispatchResult) (id : Id) (method : String) :
    (r.response id method).id = some id := by
  unfold response
  cases r.responseError method <;> rfl

/-- However the handling of a request ends, the answer has the identifier of the request. -/
theorem Conclusion.answer_id (c : Conclusion) (id : Id) (method : String) :
    (c.answer id method).id = some id := by
  cases c with
  | returned result => exact result.response_id id method
  | panicked text => rfl

/-- After a panic it is the answer that the work on the request gives. -/
theorem Conclusion.answer_panicked (text : String) (id : Id) (method : String) :
    (panicked text).answer id method = Work.panicAnswer method id := rfl

/-- A panic is answered with the code for internal errors, and the answer names the method. -/
theorem Work.panicAnswer_error (method : String) (id : Id) :
    (panicAnswer method id).error =
      some { code := -32603, message := method ++ " handler panicked" } := rfl

/-- What happens to a message. -/
inductive Deed where
  /-- It is handed to the handler. -/
  | begun (context : Context)
  /-- The handler is done with it. -/
  | ended (context : Context) (conclusion : Conclusion)
  /-- A message is queued, or given up, on its account. -/
  | answered (message : RpcMessage)

namespace Event

/-- What an event tells of a message. -/
def deed? : Event → Option (Nat × Deed)
  | .begun number x => some (number, .begun x)
  | .returned number x result => some (number, .ended x (.returned result))
  | .panicked number x text => some (number, .ended x (.panicked text))
  | .queued (.answer number) m => some (number, .answered m)
  | .dropped (.answer number) m => some (number, .answered m)
  | _ => none

/-- The message that is queued in an event. -/
def queued? : Event → Option RpcMessage
  | .queued _ m => some m
  | _ => none

/-- Whether a message is given up in an event. -/
def isDropped : Event → Bool
  | .dropped _ _ => true
  | _ => false

/-- Whether an event is one of those that a callback brings about while it runs; it may send
messages, but no responses. -/
def isOfCallback : Event → Bool
  | .invoked _ => true
  | .noted _ _ => true
  | .queued (.callback _) m => !m.isResponse
  | .dropped (.callback _) m => !m.isResponse
  | .quiet => true
  | _ => false

/-- While its callback runs nothing happens to a message. -/
theorem deed?_of_isOfCallback {event : Event} (h : event.isOfCallback = true) :
    event.deed? = none := by
  cases event with
  | queued sender m | dropped sender m => cases sender <;> simp_all [isOfCallback, deed?]
  | _ => simp_all [isOfCallback, deed?]

/-- What events tell of messages, in order. -/
def deeds (events : List Event) : List (Nat × Deed) := events.filterMap deed?

/-- What events tell of one message, in order. -/
def story (number : Nat) (events : List Event) : List Deed :=
  ((deeds events).filter (·.1 = number)).map (·.2)

/-- One more event adds at most one deed. -/
theorem deeds_append (events : List Event) (event : Event) :
    deeds (events ++ [event]) = deeds events ++ event.deed?.toList := by
  cases h : event.deed? <;> simp [deeds, h]

/-- An event tells of no message but its own. -/
theorem story_append_of_ne {event : Event} {number : Nat}
    (h : ∀ p, event.deed? = some p → p.1 ≠ number) (events : List Event) :
    story number (events ++ [event]) = story number events := by
  simp only [story, deeds_append]
  cases hd : event.deed? with
  | none => simp
  | some p => simp [h p hd]

/-- A deed on account of a message is added to its story. -/
theorem story_append_of_eq {event : Event} {number : Nat} {deed : Deed}
    (h : event.deed? = some (number, deed)) (events : List Event) :
    story number (events ++ [event]) = story number events ++ [deed] := by
  simp [story, deeds_append, h]

end Event

/-- All that happens to a message that comes to a conclusion. -/
def Context.story (x : Context) (conclusion : Conclusion) : List Deed :=
  match x.id with
  | some id =>
    [.begun x, .ended x conclusion, .answered (.response (conclusion.answer id x.method))]
  | none => [.begun x, .ended x conclusion]

/-! ## Steps of the work on a message -/

/-- Whether the handler has the message. -/
def Stage.isHandling : Stage → Bool
  | .chosen _ => true
  | .acting _ => true
  | .calling .. => true
  | .decided _ => true
  | _ => false

namespace Work

/-- What a step of the work on a message can do, as far as it shows. -/
inductive Passage (w : Work) : Event → Work → Prop
  /-- The handler gets the message. -/
  | begins {stage : Stage} : w.stage = .arrived → stage.isHandling = true →
    Passage w (.begun w.number w.context) (w.enter stage)
  /-- The handler goes on. -/
  | goesOn {event : Event} {stage : Stage} : w.stage.isHandling = true → stage.isHandling = true →
    event.isOfCallback = true → Passage w event (w.enter stage)
  /-- The handler is done. -/
  | ends {event : Event} {conclusion : Conclusion} : w.stage.isHandling = true →
    event.deed? = some (w.number, .ended w.context conclusion) →
    Passage w event (w.answerWith fun id => conclusion.answer id w.context.method)
  /-- The request leaves the requests in flight. -/
  | settles {answer : ResponseMessage} : w.stage = .handled answer →
    Passage w .quiet (w.enter (if w.context.id.isSome then .settled answer else .finished))
  /-- The request is answered, or its answer is given up. -/
  | answers {event : Event} {answer : ResponseMessage} : w.stage = .settled answer →
    event.deed? = some (w.number, .answered (.response answer)) →
    Passage w event (w.enter .finished)

end Work

/-- Between two connections exactly the message of an event is queued; a message is given up only
when nothing is written any more. -/
structure Connection.Queues (c : Connection) (event : Event) (c' : Connection) : Prop where
  writing_eq : c'.writing = c.writing
  outgoing_eq : c'.outgoing = c.outgoing ++ event.queued?.toList
  writing_of_dropped : event.isDropped = true → c.writing = false

/-- Nothing is queued when neither the queue nor the writer changes. -/
theorem Connection.Queues.of_eq {c c' : Connection} {event : Event} (hw : c'.writing = c.writing)
    (ho : c'.outgoing = c.outgoing) (hq : event.queued? = none) (hd : event.isDropped = false) :
    c.Queues event c' :=
  ⟨hw, by simp [ho, hq], by simp [hd]⟩

/-- Sending a message queues it, or gives it up when nothing is written any more. -/
theorem Connection.queues_send (c : Connection) (sender : Sender) (m : RpcMessage) :
    c.Queues (c.send sender m).1 (c.send sender m).2 := by
  cases h : c.writing <;> constructor <;> simp [send, h, Event.queued?, Event.isDropped]

namespace Work

/-- A message that is sent is queued or given up. -/
theorem event_send_eq (c : Connection) (sender : Sender) (m : RpcMessage) :
    (c.send sender m).1 = .queued sender m ∨ (c.send sender m).1 = .dropped sender m := by
  cases h : c.writing <;> simp [Connection.send, h]

/-- A message of a callback that is no response tells of nothing. -/
private theorem isOfCallback_send {w : Work} {c : Connection} {m : RpcMessage}
    (hm : m.isResponse = false) : (c.send (.callback w.number) m).1.isOfCallback = true := by
  rcases event_send_eq c (.callback w.number) m with h | h <;> simp [h, Event.isOfCallback, hm]

/-- So it is with a step of a call of the client. -/
private theorem isOfCallback_of_step {w : Work} {c c' : Connection} {n : Nat} {method : String}
    {params : LspAny} {stage : CallStage} {event : Event} {next : CallStep}
    (h : stage.step c (.callback w.number) n method params = some (event, next, c')) :
    event.isOfCallback = true ∧ c.Queues event c' := by
  rcases CallStage.step_cases h with ⟨rfl, calls, rfl⟩ | hs
  · exact ⟨rfl, .of_eq rfl rfl rfl rfl⟩
  · rw [Prod.mk.injEq] at hs
    obtain ⟨rfl, rfl⟩ := hs
    exact ⟨isOfCallback_send rfl, c.queues_send _ _⟩

/-- A step of the work on a message is a passage, and queues what its event says. -/
theorem passage_of_advance {w w' : Work} {c c' : Connection} {event : Event}
    (h : w.advance c = some (event, w', c')) : w.Passage event w' ∧ c.Queues event c' := by
  cases stride_of_advance h with
  | turnsAway hs _ | chooses hs _ => exact ⟨.begins hs rfl, .of_eq rfl rfl rfl rfl⟩
  | refuses hs _ | rejects hs _ _ | starts hs _ _ | ends hs | notes hs | calls hs | wakes hs _
  | handles hs _ => exact ⟨.goesOn (by rw [hs]; rfl) rfl rfl, .of_eq rfl rfl rfl rfl⟩
  | notifies hs =>
    exact ⟨.goesOn (by rw [hs]; rfl) rfl (isOfCallback_send rfl), c.queues_send _ _⟩
  | goesOn hs hstep | returns hs hstep =>
    obtain ⟨he, hq⟩ := isOfCallback_of_step hstep
    exact ⟨.goesOn (by rw [hs]; rfl) rfl he, hq⟩
  | @panics text hs =>
    refine ⟨?_, .of_eq rfl rfl rfl rfl⟩
    show w.Passage _ (w.answerWith fun id => (Conclusion.panicked text).answer id w.context.method)
    exact .ends (by rw [hs]; rfl) rfl
  | @concludes result hs =>
    refine ⟨?_, .of_eq rfl rfl rfl rfl⟩
    show w.Passage _
      (w.answerWith fun id => (Conclusion.returned result).answer id w.context.method)
    exact .ends (by rw [hs]; rfl) rfl
  | settles hs hid | lapses hs hid =>
    -- The identifier decides what is next, in the step as in the passage.
    have hp := Passage.settles hs
    rw [hid] at hp
    exact ⟨hp, .of_eq rfl rfl rfl rfl⟩
  | @answers answer hs =>
    refine ⟨.answers hs ?_, c.queues_send _ _⟩
    rcases event_send_eq c (.answer w.number) (.response answer) with he | he <;> rw [he] <;> rfl

/-! ## How much has happened at a stage -/

/-- Whether so much of the story of a message has happened as its work says. -/
def Tells (w : Work) (story : List Deed) : Prop :=
  match w.stage with
  | .arrived => story = []
  | .chosen _ | .acting _ | .calling .. | .decided _ => story = [.begun w.context]
  | .handled answer | .settled answer =>
    ∃ conclusion, story = [.begun w.context, .ended w.context conclusion] ∧
      w.context.id.map (conclusion.answer · w.context.method) = some answer
  | .finished => ∃ conclusion, story = w.context.story conclusion

/-- While a message is handled its story is that it has begun. -/
theorem tells_iff_of_isHandling {w : Work} {story : List Deed} (h : w.stage.isHandling = true) :
    w.Tells story ↔ story = [.begun w.context] := by
  simp only [Tells]
  cases hs : w.stage with
  | chosen _ | acting _ | calling _ _ _ _ _ | decided _ => exact Iff.rfl
  | arrived | handled _ | settled _ | finished => simp [hs, Stage.isHandling] at h

/-- The deed of a step is what happens next in the story of its message. -/
theorem Passage.tells {w w' : Work} {event : Event} (h : w.Passage event w') {story : List Deed}
    (ht : w.Tells story) : w'.Tells (story ++ (event.deed?.map (·.2)).toList) := by
  cases h with
  | begins hs hh =>
    rw [tells_iff_of_isHandling hh]
    simp only [Tells, hs] at ht
    rw [ht]
    rfl
  | goesOn hs hh he =>
    rw [tells_iff_of_isHandling hs] at ht
    rw [tells_iff_of_isHandling hh, ht, Event.deed?_of_isOfCallback he]
    rfl
  | @ends _ conclusion hs hd =>
    rw [tells_iff_of_isHandling hs] at ht
    rw [ht, hd, answerWith]
    cases hid : w.context.id with
    -- A notification has no answer, so this is the end of its story.
    | none =>
      refine ⟨conclusion, ?_⟩
      simp [Context.story, enter, hid]
    | some id => exact ⟨conclusion, rfl, by simp [enter, hid]⟩
  | settles hs =>
    simp only [Tells, hs] at ht
    obtain ⟨conclusion, rfl, ha⟩ := ht
    -- Only the work on a request gets here.
    obtain ⟨id, hid, -⟩ := Option.map_eq_some_iff.1 ha
    rw [hid]
    exact ⟨conclusion, rfl, ha⟩
  | answers hs hd =>
    simp only [Tells, hs] at ht
    obtain ⟨conclusion, rfl, ha⟩ := ht
    obtain ⟨id, hid, rfl⟩ := Option.map_eq_some_iff.1 ha
    refine ⟨conclusion, ?_⟩
    simp [Context.story, enter, hid, hd]

/-- A step leaves the work on the same message, in the same context. -/
theorem Passage.number_eq {w w' : Work} {event : Event} (h : w.Passage event w') :
    w'.number = w.number ∧ w'.context = w.context := by
  cases h with
  | begins _ _ | goesOn _ _ _ | settles _ | answers _ _ => exact ⟨rfl, rfl⟩
  | ends hs hd =>
    simp only [answerWith]
    split <;> exact ⟨rfl, rfl⟩

/-- What happens in a step happens to the message that is worked on. -/
theorem Passage.number_of_deed {w w' : Work} {event : Event} (h : w.Passage event w')
    {p : Nat × Deed} (hp : event.deed? = some p) : p.1 = w.number := by
  cases h with
  | begins _ _ =>
    simp only [Event.deed?, Option.some.injEq] at hp
    rw [← hp]
  | goesOn _ _ he => simp [Event.deed?_of_isOfCallback he] at hp
  | settles _ => simp [Event.deed?] at hp
  | ends _ hd | answers _ hd =>
    rw [hd, Option.some.injEq] at hp
    rw [← hp]

/-- A step of the work on a message is no part of the story of another message. -/
theorem Passage.story_of_ne {w w' : Work} {event : Event} (h : w.Passage event w') {number : Nat}
    (hne : number ≠ w.number) (events : List Event) :
    Event.story number (events ++ [event]) = Event.story number events := by
  refine Event.story_append_of_ne (fun p hp => ?_) events
  rw [h.number_of_deed hp]
  exact hne.symm

/-- A step of the work on a message carries its story on. -/
theorem Passage.tells_story {w w' : Work} {event : Event} (h : w.Passage event w')
    {events : List Event} (ht : w.Tells (Event.story w.number events)) :
    w'.Tells (Event.story w.number (events ++ [event])) := by
  have ht' := h.tells ht
  cases hd : event.deed? with
  | none =>
    rw [Event.story_append_of_ne (by simp [hd])]
    simpa [hd] using ht'
  | some p =>
    obtain ⟨number, deed⟩ := p
    -- The deed is of this message, so that it is the next of its story.
    have hn : number = w.number := h.number_of_deed hd
    rw [Event.story_append_of_eq (hn ▸ hd)]
    simpa [hd] using ht'

/-- When the work is done the story has come to its end. -/
theorem Tells.of_isOver {w : Work} {story : List Deed} (ht : w.Tells story)
    (ho : w.isOver = true) : ∃ conclusion, story = w.context.story conclusion := by
  cases hs : w.stage with
  | finished =>
    rw [Tells, hs] at ht
    exact ht
  | _ => simp [isOver, hs] at ho

end Work

end LanguageServer
