import LanguageServer.Server.Run

/-!
# The steps of the parties

For each party to a session an inductive says in full what its steps are: what each needs, what
happens in it, and what it makes of the session.

* `Session.readerStep_of_step`: the reader reads while messages are taken, and then it winds the
  session up.  There is no step for a reader that panics.
* `Session.workerStep_of_step` and `Session.jobStep_of_step`: work takes a step, or the worker picks
  up what is next in its queue.
* `Session.writerStep_of_step`: the writer writes a message, or it ends.

Each step function is taken apart here and nowhere else.
-/

namespace LanguageServer

namespace Session

/-- A step of the reader. -/
inductive ReaderStep (s : Session) : Event → Session → Prop
  /-- The stream has come to its end. -/
  | ends : s.phase = .reading →
    Frame.read s.maxMessageSize (!s.inputEnded) s.input = .finished →
    ReaderStep s (.stopped (.ok ())) (s.stop (.ok ()))
  /-- Something is no frame. -/
  | breaks {e : LspError} : s.phase = .reading →
    Frame.read s.maxMessageSize (!s.inputEnded) s.input = .broken e →
    ReaderStep s (.stopped (.error e)) (s.stop (.error e))
  /-- A body that is no message is turned down. -/
  | rejects {frame : Frame} {rest : List UInt8} {answer : ResponseMessage} : s.phase = .reading →
    Frame.read s.maxMessageSize (!s.inputEnded) s.input = .frame frame rest →
    RpcMessage.ofBody frame.content = .error answer →
    ReaderStep s (s.connection.send .reader (.response answer)).1
      { s with input := rest, connection := (s.connection.send .reader (.response answer)).2 }
  /-- A message is taken. -/
  | takes {frame : Frame} {rest : List UInt8} {m : RpcMessage} : s.phase = .reading →
    Frame.read s.maxMessageSize (!s.inputEnded) s.input = .frame frame rest →
    RpcMessage.ofBody frame.content = .ok m →
    ReaderStep s (.taken s.taken m) ({ s with input := rest }.take m)
  /-- Calls are refused from now on. -/
  | closes : s.phase = .closing →
    ReaderStep s .quiet
      { s with
        phase := .cancelling
        connection := { s.connection with calls := s.connection.calls.close } }
  /-- The requests in flight are given up. -/
  | cancels : s.phase = .cancelling →
    ReaderStep s .quiet { s with phase := .releasing, connection := s.connection.cancelAll }
  /-- The calls that wait are given up. -/
  | clears : s.phase = .releasing →
    ReaderStep s .quiet
      { s with
        phase := .draining
        connection := { s.connection with calls := s.connection.calls.clear } }
  /-- The worker is done. -/
  | drains : s.phase = .draining → s.queue = [] → s.current = none →
    ReaderStep s .quiet { s with phase := .stopping }
  /-- The writer has ended. -/
  | returns : s.phase = .stopping → s.connection.writing = false →
    ReaderStep s .quiet { s with phase := .returned }

/-- A step of the worker. -/
inductive WorkerStep (s : Session) : Event → Session → Prop
  /-- What it has in hand takes a step. -/
  | advances {event : Event} {w w' : Work} {connection : Connection} : s.current = some w →
    w.advance s.connection = some (event, w', connection) →
    WorkerStep s event { s with connection, current := if w'.isOver then none else some w' }
  /-- It picks up what is next. -/
  | picksUp {w : Work} {rest : List Work} : s.current = none → s.queue = w :: rest →
    WorkerStep s .quiet { s with queue := rest, current := some w }

/-- A step of a job. -/
inductive JobStep (s : Session) (number : Nat) : Event → Session → Prop
  | advances {event : Event} {w w' : Work} {connection : Connection} :
    s.jobs.find? (·.number == number) = some w →
    w.advance s.connection = some (event, w', connection) →
    JobStep s number event { s with connection, jobs := putJob w' s.jobs }

/-- A step of the writer. -/
inductive WriterStep (s : Session) : Event → Session → Prop
  /-- A message is written. -/
  | writes {m : RpcMessage} {rest : List RpcMessage} : s.connection.writing = true →
    s.connection.outgoing = m :: rest → s.hungUp = false →
    WriterStep s (.wrote m) { s with connection := { s.connection with outgoing := rest } }
  /-- A message fails to be written, or the writer is told to stop and nothing is left. -/
  | ends : s.connection.writing = true →
    (s.connection.outgoing ≠ [] ∧ s.hungUp = true) ∨
      (s.connection.outgoing = [] ∧ s.phase = .stopping) →
    WriterStep s .quiet
      { s with connection := { s.connection with writing := false, outgoing := [] } }

variable {s t : Session} {event : Event}

/-- What is read stops the reading, is turned down or is taken. -/
private theorem readerStep_of_read (hp : s.phase = .reading) (h : s.read = some (event, t)) :
    s.ReaderStep event t := by
  unfold read at h
  cases hf : Frame.read s.maxMessageSize (!s.inputEnded) s.input with
  | waiting | overflow =>
    rw [hf] at h
    cases h
  | finished =>
    rw [hf] at h
    obtain ⟨rfl, rfl⟩ := Prod.mk.inj (Option.some.inj h)
    exact .ends hp hf
  | broken e =>
    rw [hf] at h
    obtain ⟨rfl, rfl⟩ := Prod.mk.inj (Option.some.inj h)
    exact .breaks hp hf
  | frame frame rest =>
    simp only [hf] at h
    -- Whether its body holds a message decides what the frame leads to.
    cases hb : RpcMessage.ofBody frame.content with
    | error answer =>
      rw [hb] at h
      obtain ⟨rfl, rfl⟩ := Prod.mk.inj (Option.some.inj h)
      exact .rejects hp hf hb
    | ok m =>
      rw [hb] at h
      obtain ⟨rfl, rfl⟩ := Prod.mk.inj (Option.some.inj h)
      exact .takes hp hf hb

/-- These are all steps of the reader. -/
theorem readerStep_of_step (h : s.step .reader = some (event, t)) : s.ReaderStep event t := by
  unfold step stepReader at h
  -- The phase says which step is due, if one is.
  cases hp : s.phase with
  | reading =>
    simp only [hp] at h
    exact readerStep_of_read hp h
  | closing =>
    simp only [hp, Option.some.injEq, Prod.mk.injEq] at h
    obtain ⟨rfl, rfl⟩ := h
    exact .closes hp
  | cancelling =>
    simp only [hp, Option.some.injEq, Prod.mk.injEq] at h
    obtain ⟨rfl, rfl⟩ := h
    exact .cancels hp
  | releasing =>
    simp only [hp, Option.some.injEq, Prod.mk.injEq] at h
    obtain ⟨rfl, rfl⟩ := h
    exact .clears hp
  | draining =>
    simp only [hp, Option.ite_none_right_eq_some, Option.some.injEq, Prod.mk.injEq,
      Bool.and_eq_true, List.isEmpty_iff, Option.isNone_iff_eq_none] at h
    obtain ⟨⟨hq, hc⟩, rfl, rfl⟩ := h
    exact .drains hp hq hc
  | stopping =>
    simp only [hp, Option.ite_none_left_eq_some, Bool.not_eq_true, Option.some.injEq,
      Prod.mk.injEq] at h
    obtain ⟨hw, rfl, rfl⟩ := h
    exact .returns hp hw
  | returned => simp [hp] at h

/-- These are all steps of the worker. -/
theorem workerStep_of_step (h : s.step .worker = some (event, t)) : s.WorkerStep event t := by
  unfold step stepWorker at h
  cases hc : s.current with
  | some w =>
    simp only [hc] at h
    -- What is current advances before the next of the queue is picked up.
    obtain ⟨⟨e, w', c⟩, ha, he⟩ := Option.map_eq_some_iff.1 h
    obtain ⟨rfl, rfl⟩ := Prod.mk.inj he
    exact .advances hc ha
  | none =>
    cases hq : s.queue with
    | nil => simp [hc, hq] at h
    | cons w rest =>
      simp only [hc, hq, Option.some.injEq, Prod.mk.injEq] at h
      obtain ⟨rfl, rfl⟩ := h
      exact .picksUp hc hq

/-- These are all steps of a job. -/
theorem jobStep_of_step {number : Nat} (h : s.step (.job number) = some (event, t)) :
    s.JobStep number event t := by
  unfold step stepJob at h
  cases hf : s.jobs.find? (·.number == number) with
  | none => simp [hf] at h
  | some w =>
    simp only [hf] at h
    obtain ⟨⟨e, w', c⟩, ha, he⟩ := Option.map_eq_some_iff.1 h
    obtain ⟨rfl, rfl⟩ := Prod.mk.inj he
    exact .advances hf ha

/-- These are all steps of the writer. -/
theorem writerStep_of_step (h : s.step .writer = some (event, t)) : s.WriterStep event t := by
  simp only [step, stepWriter, Option.ite_none_right_eq_some] at h
  obtain ⟨hw, h⟩ := h
  cases ho : s.connection.outgoing with
  | cons m rest =>
    simp only [ho] at h
    -- With messages left it writes, unless the client has hung up.
    by_cases hh : s.hungUp = true
    · rw [if_pos hh] at h
      obtain ⟨rfl, rfl⟩ := Prod.mk.inj (Option.some.inj h)
      exact .ends hw (.inl ⟨by simp [ho], hh⟩)
    · rw [if_neg hh] at h
      obtain ⟨rfl, rfl⟩ := Prod.mk.inj (Option.some.inj h)
      exact .writes hw ho (by simpa using hh)
  | nil =>
    simp only [ho, Option.ite_none_right_eq_some, Option.some.injEq, Prod.mk.injEq] at h
    obtain ⟨hp, rfl, rfl⟩ := h
    exact .ends hw (.inr ⟨ho, hp⟩)

/-- A reader that has come upon a body that no buffer can hold takes no step. -/
theorem step_reader_of_overflow (hp : s.phase = .reading)
    (hf : Frame.read s.maxMessageSize (!s.inputEnded) s.input = .overflow) :
    s.step .reader = none := by
  simp only [step, stepReader, hp, read, hf]

end Session

end LanguageServer
