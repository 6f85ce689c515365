import LanguageServer.Server.Work

/-!
# The steps of the work on a message

`Work.Stride` says in full what the steps of the work on a message are: what each needs, what
happens in it, and what it makes of the work and of the connection.  `Work.stride_of_advance` says
that these are all.  What steps have in common is read off it, so that `Work.advance` is taken apart
once.
-/

namespace LanguageServer

/-- A step of a call either does something to the table of calls, or it sends the request. -/
theorem CallStage.step_cases {c c' : Connection} {sender : Sender} {n : Nat} {method : String}
    {params : LspAny} {stage : CallStage} {event : Event} {next : CallStep}
    (h : stage.step c sender n method params = some (event, next, c')) :
    (event = .quiet ∧ ∃ calls, c' = { c with calls }) ∨
      (event, c') = c.send sender (.ofRequest (Calls.idOf n) method params.asParams) := by
  cases stage with
  | numbered | enlisted | refused | failed =>
    simp only [step, Option.some.injEq, Prod.mk.injEq] at h
    obtain ⟨rfl, -, rfl⟩ := h
    exact .inl ⟨rfl, _, rfl⟩
  | unsent =>
    simp only [step, Option.some.injEq, Prod.mk.injEq] at h
    obtain ⟨rfl, -, rfl⟩ := h
    exact .inr rfl
  -- A call that waits has a step only when there is an outcome.
  | waiting =>
    obtain ⟨outcome, -, he⟩ := Option.map_eq_some_iff.1 h
    simp only [Prod.mk.injEq] at he
    obtain ⟨rfl, -, rfl⟩ := he
    exact .inl ⟨rfl, _, rfl⟩

namespace Work

/-- A step of the work on a message. -/
inductive Stride (w : Work) (c : Connection) : Event → Work → Connection → Prop
  /-- The handler has no callback for the message. -/
  | turnsAway {result : DispatchResult} : w.stage = .arrived →
    c.handler.lookUp w.context.method = .refuse result →
    Stride w c (.begun w.number w.context) (w.enter (.decided result)) c
  /-- The handler has a callback for the message. -/
  | chooses {entry : Entry} : w.stage = .arrived →
    c.handler.lookUp w.context.method = .handle entry →
    Stride w c (.begun w.number w.context) (w.enter (.chosen entry)) c
  /-- The request was given up before its callback has started. -/
  | refuses {entry : Entry} : w.stage = .chosen entry →
    w.context.isRefused (c.isCancelled w.number) = true →
    Stride w c .quiet (w.enter (.decided (.failure .requestCancelled))) c
  /-- The callback does not take the parameters. -/
  | rejects {entry : Entry} {e : LspError} : w.stage = .chosen entry →
    w.context.isRefused (c.isCancelled w.number) = false → entry.start w.context = .error e →
    Stride w c .quiet (w.enter (.decided (.invalidParams (some e)))) c
  /-- The callback starts. -/
  | starts {entry : Entry} {activity : Activity} : w.stage = .chosen entry →
    w.context.isRefused (c.isCancelled w.number) = false → entry.start w.context = .ok activity →
    Stride w c (.invoked w.number) (w.enter (.acting activity)) c
  /-- The callback has an outcome. -/
  | ends {outcome : Outcome (Option LspAny)} : w.stage = .acting (.done outcome) →
    Stride w c .quiet (w.enter (.decided (.ofOutcome outcome))) c
  /-- The callback panics. -/
  | panics {text : String} : w.stage = .acting (.panic text) →
    Stride w c (.panicked w.number w.context text) (w.answerWith (panicAnswer w.context.method)) c
  /-- The callback leaves a note. -/
  | notes {entry : Json} {next : Activity} : w.stage = .acting (.note entry next) →
    Stride w c (.noted w.number entry) (w.enter (.acting next)) c
  /-- The callback notifies the client. -/
  | notifies {method : String} {params : LspAny} {next : Outcome Unit → Activity} :
    w.stage = .acting (.notify method params next) →
    Stride w c (c.send (.callback w.number) (.ofNotification method params.asParams)).1
      (w.enter (.acting (next (if c.writing then .ok () else .error Connection.writerGone))))
      (c.send (.callback w.number) (.ofNotification method params.asParams)).2
  /-- The callback has a new call of the client. -/
  | calls {method : String} {params : LspAny} {next : Outcome LspAny → Activity} :
    w.stage = .acting (.call method params next) →
    Stride w c .quiet (w.enter (.calling c.calls.taken .numbered method params next))
      { c with calls := c.calls.take.2 }
  /-- The callback has waited until its message was given up. -/
  | wakes {next : Activity} : w.stage = .acting (.awaitCancelled next) →
    w.context.isCancelled (c.isCancelled w.number) = true →
    Stride w c .quiet (w.enter (.acting next)) c
  /-- The callback asks whether its message is given up, looks at the handler or changes it. -/
  | handles {activity next : Activity} {handler : Handler} : w.stage = .acting activity →
    w.act c activity = some (.quiet, w.enter (.acting next), { c with handler }) →
    Stride w c .quiet (w.enter (.acting next)) { c with handler }
  /-- A call of the client goes on. -/
  | goesOn {call : Nat} {stage next : CallStage} {method : String} {params : LspAny}
    {f : Outcome LspAny → Activity} {event : Event} {c' : Connection} :
    w.stage = .calling call stage method params f →
    stage.step c (.callback w.number) call method params = some (event, .goesOn next, c') →
    Stride w c event (w.enter (.calling call next method params f)) c'
  /-- A call of the client is over. -/
  | returns {call : Nat} {stage : CallStage} {outcome : Outcome LspAny} {method : String}
    {params : LspAny} {f : Outcome LspAny → Activity} {event : Event} {c' : Connection} :
    w.stage = .calling call stage method params f →
    stage.step c (.callback w.number) call method params = some (event, .yields outcome, c') →
    Stride w c event (w.enter (.acting (f outcome))) c'
  /-- The handler is done with the message. -/
  | concludes {result : DispatchResult} : w.stage = .decided result →
    Stride w c (.returned w.number w.context result)
      (w.answerWith fun id => result.response id w.context.method)
      { c with handler := c.handler.finish w.context.method result }
  /-- The request leaves the requests in flight. -/
  | settles {answer : ResponseMessage} {id : Id} : w.stage = .handled answer →
    w.context.id = some id → Stride w c .quiet (w.enter (.settled answer)) (c.settle id)
  /-- There is nothing to answer. -/
  | lapses {answer : ResponseMessage} : w.stage = .handled answer → w.context.id = none →
    Stride w c .quiet (w.enter .finished) c
  /-- The request is answered. -/
  | answers {answer : ResponseMessage} : w.stage = .settled answer →
    Stride w c (c.send (.answer w.number) (.response answer)).1 (w.enter .finished)
      (c.send (.answer w.number) (.response answer)).2

variable {w w' : Work} {c c' : Connection} {event : Event}

/-- What a step of a callback is, by what the callback does next. -/
private theorem stride_of_act {activity : Activity} (hs : w.stage = .acting activity)
    (h : w.act c activity = some (event, w', c')) : w.Stride c event w' c' := by
  cases activity with
  | done outcome =>
    simp only [act, Option.some.injEq, Prod.mk.injEq] at h
    obtain ⟨rfl, rfl, rfl⟩ := h
    exact .ends hs
  | panic text =>
    simp only [act, Option.some.injEq, Prod.mk.injEq] at h
    obtain ⟨rfl, rfl, rfl⟩ := h
    exact .panics hs
  | note entry next =>
    simp only [act, Option.some.injEq, Prod.mk.injEq] at h
    obtain ⟨rfl, rfl, rfl⟩ := h
    exact .notes hs
  | notify method params next =>
    simp only [act, Option.some.injEq, Prod.mk.injEq] at h
    obtain ⟨rfl, rfl, rfl⟩ := h
    exact .notifies hs
  | call method params next =>
    simp only [act, Option.some.injEq, Prod.mk.injEq] at h
    obtain ⟨rfl, rfl, rfl⟩ := h
    exact .calls hs
  | awaitCancelled next =>
    simp only [act, Option.ite_none_right_eq_some, Option.some.injEq, Prod.mk.injEq] at h
    obtain ⟨hc, rfl, rfl, rfl⟩ := h
    exact .wakes hs hc
  | askCancelled next | look next | setTrace level next | register method start next
  | unregister method next =>
    -- These touch the handler or nothing, and their step is kept as it stands.
    have hact := h
    simp only [act, Option.some.injEq, Prod.mk.injEq] at h
    obtain ⟨rfl, rfl, rfl⟩ := h
    exact .handles hs hact

/-- What a step of a call is: the call goes on, or the callback does with its outcome. -/
private theorem stride_of_call {call : Nat} {stage : CallStage} {method : String}
    {params : LspAny} {next : Outcome LspAny → Activity}
    (hs : w.stage = .calling call stage method params next)
    (h : w.call c call method params next stage = some (event, w', c')) :
    w.Stride c event w' c' := by
  -- The call takes one step: it goes on, or its outcome goes to what waits for it.
  obtain ⟨⟨e, step, d⟩, hstep, he⟩ := Option.map_eq_some_iff.1 h
  cases step with
  | goesOn stage' =>
    simp only [Prod.mk.injEq] at he
    obtain ⟨rfl, rfl, rfl⟩ := he
    exact .goesOn hs hstep
  | yields outcome =>
    simp only [Prod.mk.injEq] at he
    obtain ⟨rfl, rfl, rfl⟩ := he
    exact .returns hs hstep

/-- Every step of the work on a message is one of these. -/
theorem stride_of_advance (h : w.advance c = some (event, w', c')) : w.Stride c event w' c' := by
  cases hs : w.stage with
  | arrived =>
    simp only [advance, hs] at h
    split at h <;> rename_i hl <;> simp only [Option.some.injEq, Prod.mk.injEq] at h <;>
      obtain ⟨rfl, rfl, rfl⟩ := h
    · exact .turnsAway hs hl
    · exact .chooses hs hl
  | chosen entry =>
    simp only [advance, hs] at h
    split at h
    · rename_i hr
      simp only [Option.some.injEq, Prod.mk.injEq] at h
      obtain ⟨rfl, rfl, rfl⟩ := h
      exact .refuses hs hr
    · rename_i hr
      -- It is due, so that the entry reads the parameters.
      rw [Bool.not_eq_true] at hr
      split at h <;> rename_i he <;> simp only [Option.some.injEq, Prod.mk.injEq] at h <;>
        obtain ⟨rfl, rfl, rfl⟩ := h
      · exact .rejects hs hr he
      · exact .starts hs hr he
  | acting activity =>
    simp only [advance, hs] at h
    exact stride_of_act hs h
  | calling call stage method params next =>
    simp only [advance, hs] at h
    exact stride_of_call hs h
  | decided result =>
    simp only [advance, hs, Option.some.injEq, Prod.mk.injEq] at h
    obtain ⟨rfl, rfl, rfl⟩ := h
    exact .concludes hs
  | handled answer =>
    simp only [advance, hs] at h
    split at h <;> rename_i hid <;> simp only [Option.some.injEq, Prod.mk.injEq] at h <;>
      obtain ⟨rfl, rfl, rfl⟩ := h
    · exact .settles hs hid
    · exact .lapses hs hid
  | settled answer =>
    simp only [advance, hs, Option.some.injEq, Prod.mk.injEq] at h
    obtain ⟨rfl, rfl, rfl⟩ := h
    exact .answers hs
  | finished => simp [advance, hs] at h

end Work

end LanguageServer
