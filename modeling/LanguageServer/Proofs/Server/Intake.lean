import LanguageServer.Proofs.Frame.Stream
import LanguageServer.Proofs.Server.Change

/-!
# What the reader takes off the stream

However the bytes of the client are cut, and whatever happens in between, the reader deals with the
frames of the stream one after the other: `Session.readings_of_run` says that the messages that it
takes, and the bodies that it turns down, are those of the first frames of all the bytes that have
come.  `Session.halted_of_run` says that it goes on until it takes `exit`, or finds the end of the
stream or something that is no frame.  `Session.overflow_of_run` says that a reader that panics does
none of that.
-/

namespace LanguageServer

namespace Event

/-- All the bytes that have come. -/
def stream (events : List Event) : List UInt8 := (events.filterMap bytes?).flatten

/-- What the reader has made of the frames so far, in order. -/
def readings (events : List Event) : List (Except ResponseMessage RpcMessage) :=
  events.filterMap reading?

/-- Reading has stopped: at `exit`, or at the end of a stream all of whose frames have been read, or
at something that is no frame.  Nothing is read from then on. -/
inductive Halted (limit : Nat) : List Event → Prop
  | exits {before after : List Event} {number : Nat} {m : NotificationMessage} :
    m.method = Method.exit → readings after = [] →
    Halted limit (before ++ .taken number (.notification m) :: after)
  | ends {before after : List Event} :
    (Frame.readAll limit (stream before)).1.map (RpcMessage.ofBody ·.content) = readings before →
    Frame.stop limit (stream before) = .finished → readings after = [] →
    Halted limit (before ++ .stopped (.ok ()) :: after)
  | breaks {before after : List Event} {e : LspError} :
    (Frame.readAll limit (stream before)).1.map (RpcMessage.ofBody ·.content) = readings before →
    Frame.stop limit (stream before) = .broken e → readings after = [] →
    Halted limit (before ++ .stopped (.error e) :: after)

/-- One more event brings the bytes that are received in it, if any. -/
theorem stream_append (events : List Event) (event : Event) :
    stream (events ++ [event]) = stream events ++ event.bytes?.getD [] := by
  cases h : event.bytes? <;> simp [stream, h]

/-- One more event tells of at most one more frame. -/
theorem readings_append (events : List Event) (event : Event) :
    readings (events ++ [event]) = readings events ++ event.reading?.toList := by
  cases h : event.reading? <;> simp [readings, h]

/-- What reads nothing leaves the reading stopped. -/
theorem Halted.append {limit : Nat} {events : List Event} {event : Event} (h : Halted limit events)
    (hn : event.reading? = none) : Halted limit (events ++ [event]) := by
  cases h with
  | exits hm ha =>
    rw [List.append_assoc, List.cons_append]
    -- What came after the end is still no reading.
    exact .exits hm (by simp [readings_append, ha, hn])
  | ends hb he ha =>
    rw [List.append_assoc, List.cons_append]
    exact .ends hb he (by simp [readings_append, ha, hn])
  | breaks hb he ha =>
    rw [List.append_assoc, List.cons_append]
    exact .breaks hb he (by simp [readings_append, ha, hn])

end Event

namespace Session

open Event (arrivals stream readings)

variable {s t : Session} {event : Event} {events : List Event}

/-- What a change does to the input. -/
theorem Change.intake (h : s.Change event t) :
    s.Intake event t.input ∧ t.maxMessageSize = s.maxMessageSize := by
  cases h with
  | aside hi _ _ _ _ _ | resolves hi | queues hi _ _ _ _ _ _ _ | starts hi _ _ _ _ =>
    exact ⟨hi, rfl⟩
  | picksUp _ _ => exact ⟨.nothing rfl rfl, rfl⟩
  | workerSteps _ ha | jobSteps _ ha =>
    obtain ⟨-, hb, hr⟩ := (Work.passage_of_advance ha).1.input_eq
    exact ⟨.nothing hb hr, rfl⟩

/-- How a change of a session affects its reader. -/
theorem Change.halt (h : s.Change event t) : s.Halt event t.phase := by
  cases h with
  | aside _ _ hh _ _ _ | queues _ hh _ _ _ _ _ _ => exact hh
  | resolves _ | starts _ _ _ _ _ | picksUp _ _ | workerSteps _ _ | jobSteps _ _ =>
    exact .goesOn .rfl

/-- Nothing is read unless messages are taken. -/
theorem Intake.reading?_eq_none {input : List UInt8} (h : s.Intake event input)
    (hp : s.phase ≠ .reading) : event.reading? = none := by
  cases h with
  | nothing _ hn => exact hn
  | receives => rfl
  | reads hr _ _ _ => exact absurd hr hp

/-- The frames of the stream are those that the reader has dealt with and, behind them, those of the
input; this stays so whatever comes. -/
structure Reading (limit : Nat) (events : List Event) (s : Session) : Prop where
  limit_eq : s.maxMessageSize = limit
  frames_eq : ∃ frames : List Frame,
    readings events = frames.map (RpcMessage.ofBody ·.content) ∧
    ∀ more, (Frame.readAll limit (stream events ++ more)).1 =
        frames ++ (Frame.readAll limit (s.input ++ more)).1 ∧
      Frame.stop limit (stream events ++ more) = Frame.stop limit (s.input ++ more)

namespace Reading

variable {limit : Nat}

/-- A move keeps account of the frames. -/
theorem next (hs : s.Reading limit events) (h : s.Change event t) :
    t.Reading limit (events ++ [event]) := by
  obtain ⟨hl, frames, hr, hf⟩ := hs
  obtain ⟨hi, hm⟩ := h.intake
  refine ⟨hm.trans hl, ?_⟩
  generalize t.input = input at hi ⊢
  cases hi with
  | nothing hb hn =>
    refine ⟨frames, ?_, fun more => ?_⟩
    · simp [Event.readings_append, hn, hr]
    · simp [Event.stream_append, hb, hf]
  -- Bytes that come now are the first of those that come.
  | receives =>
    refine ⟨frames, ?_, fun more => ?_⟩
    · simp [Event.readings_append, Event.reading?, hr]
    · simp [Event.stream_append, Event.bytes?, hf]
  | @reads _ frame _ _ hfront hb hn =>
    refine ⟨frames ++ [frame], ?_, fun more => ?_⟩
    · simp [Event.readings_append, hn, hr]
    · -- The frame is there however the stream goes on.
      have hread := Frame.read_append_of_frame hfront false more
      rw [hl] at hread
      obtain ⟨hall, hstop⟩ := Frame.readAll_of_frame hread
      simp [Event.stream_append, hb, hf, hall, hstop]

/-- When the input reads as no frame, all the frames of the stream have been dealt with. -/
theorem readAll_eq {front : Frame.Front} (hs : s.Reading limit events)
    (h : Frame.Reads limit s.input [] front) :
    (Frame.readAll limit (stream events)).1.map (RpcMessage.ofBody ·.content) = readings events ∧
      Frame.stop limit (stream events) = front := by
  obtain ⟨-, frames, hr, hf⟩ := hs
  obtain ⟨hall, hstop⟩ := hf []
  simp only [List.append_nil, h.readAll_eq, h.stop_eq] at hall hstop
  rw [hall]
  exact ⟨hr.symm, hstop⟩

/-- When reading stops there is a reason. -/
theorem halted_next (hs : s.Reading limit events) (h : s.Change event t)
    (hh : s.phase ≠ .reading → Event.Halted limit events) (hp : t.phase ≠ .reading) :
    Event.Halted limit (events ++ [event]) := by
  have ht := h.halt
  generalize t.phase = phase at ht hp
  cases ht with
  | goesOn hiff =>
    -- Reading had stopped before, so this move reads nothing.
    have hr : s.phase ≠ .reading := fun hr => hp (hiff.2 hr)
    exact (hh hr).append (h.intake.1.reading?_eq_none hr)
  | exits hm => exact .exits hm rfl
  | ends hf =>
    rw [hs.limit_eq] at hf
    have hf' := (Frame.read_false (by simp [hf])).trans hf
    obtain ⟨ha, he⟩ := hs.readAll_eq (.finished hf')
    exact .ends ha he rfl
  | breaks hf =>
    rw [hs.limit_eq] at hf
    have hf' := (Frame.read_false (by simp [hf])).trans hf
    obtain ⟨ha, he⟩ := hs.readAll_eq (.broken hf')
    exact .breaks ha he rfl

end Reading

/-- The account is kept in every run. -/
theorem reading_of_run {server : Server} (h : server.session.Run events s) :
    s.Reading server.maxMessageSize events := by
  induction h with
  | start => exact ⟨rfl, [], rfl, fun _ => ⟨rfl, rfl⟩⟩
  | next m _ hm ih => exact ih.next (change_of_move hm)

/-- The reader deals with the first frames of the stream in order, and makes of each what its body
says. -/
theorem readings_of_run {server : Server} (h : server.session.Run events s) :
    readings events <+:
      (Frame.readAll server.maxMessageSize (stream events)).1.map
        (RpcMessage.ofBody ·.content) := by
  obtain ⟨-, frames, hr, hf⟩ := reading_of_run h
  have hall := (hf []).1
  simp only [List.append_nil] at hall
  rw [hr, hall, List.map_append]
  exact List.prefix_append _ _

/-- Reading stops at `exit`, at the end of the stream or at something that is no frame, and at
nothing else. -/
theorem halted_of_run {server : Server} (h : server.session.Run events s)
    (hp : s.phase ≠ .reading) : Event.Halted server.maxMessageSize events := by
  induction h with
  | start => exact absurd rfl hp
  | next m hrun hm ih => exact (reading_of_run hrun).halted_next (change_of_move hm) ih hp

/-- A move leaves a reader that panics where it is. -/
theorem overflow_of_move {m : Move} (hp : s.phase = .reading)
    (hf : Frame.read s.maxMessageSize (!s.inputEnded) s.input = .overflow)
    (h : s.move m = some (event, t)) :
    t.phase = .reading ∧
      Frame.read t.maxMessageSize (!t.inputEnded) t.input = .overflow := by
  -- The reader takes no step, and the others leave its bytes alone.
  cases m with
  | receive bytes =>
    simp only [move, Option.some.injEq, Prod.mk.injEq] at h
    obtain ⟨-, rfl⟩ := h
    exact ⟨hp, Frame.read_append_of_overflow hf _ bytes⟩
  | endInput =>
    simp only [move, Option.some.injEq, Prod.mk.injEq] at h
    obtain ⟨-, rfl⟩ := h
    have hw : Frame.read s.maxMessageSize (!s.inputEnded) s.input ≠ .waiting := by simp [hf]
    exact ⟨hp, (Frame.read_false hw).trans hf⟩
  | hangUp =>
    simp only [move, Option.some.injEq, Prod.mk.injEq] at h
    obtain ⟨-, rfl⟩ := h
    exact ⟨hp, hf⟩
  | step party =>
    cases party with
    | reader => cases (step_reader_of_overflow hp hf).symm.trans h
    | worker => cases workerStep_of_step h <;> exact ⟨hp, hf⟩
    | job number =>
      obtain ⟨-, -⟩ := jobStep_of_step h
      exact ⟨hp, hf⟩
    | writer => cases writerStep_of_step h <;> exact ⟨hp, hf⟩

/-- A reader that panics never comes to the end of reading, so that its session does not return. -/
theorem overflow_of_run (h : s.Run events t) (hp : s.phase = .reading)
    (hf : Frame.read s.maxMessageSize (!s.inputEnded) s.input = .overflow) :
    t.phase = .reading ∧
      Frame.read t.maxMessageSize (!t.inputEnded) t.input = .overflow := by
  induction h with
  | start => exact ⟨hp, hf⟩
  | next m _ hm ih => exact overflow_of_move ih.1 ih.2 hm

/-- The messages that are taken are what the reader makes of frames. -/
theorem messages_eq (events : List Event) :
    (arrivals events).map (·.2) = (readings events).filterMap Except.toOption := by
  rw [arrivals, readings, List.map_filterMap, List.filterMap_filterMap]
  congr 1
  funext e
  cases e with
  | queued sender m | dropped sender m => cases sender <;> cases m <;> rfl
  | _ => rfl

/-- The messages that are taken are those of the first frames of the stream, in order. -/
theorem messages_of_run {server : Server} (h : server.session.Run events s) :
    (arrivals events).map (·.2) <+:
      (Frame.readAll server.maxMessageSize (stream events)).1.filterMap fun f =>
        (RpcMessage.ofBody f.content).toOption := by
  have hp := (readings_of_run h).filterMap Except.toOption
  rwa [List.filterMap_map, ← messages_eq] at hp

/-- A server that knows one method, whose callback panics. -/
def exampleServer : Server where
  handler :=
    { entries := .ofList [("boom", ⟨fun _ => .ok (.panic "no")⟩)]
      life := { state := .initialized } }

/-- A run in which messages come at once, and turns are taken as far as it goes. -/
def exampleRun (bodies : List String) : List Event × Session :=
  let bytes := bodies.flatMap fun body => (Frame.ofContent body).bytes
  let (events, s) := (exampleServer.session.receive bytes).settle 60
  (.received bytes :: events, s)

/-- It is a run. -/
theorem run_exampleRun (bodies : List String) :
    exampleServer.session.Run (exampleRun bodies).1 (exampleRun bodies).2 :=
  .trans (.single (.receive _) rfl) (run_settle 60 _)

end Session

end LanguageServer
