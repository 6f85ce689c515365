import LanguageServer.Proofs.Server.Settling

/-!
# A session shows what the plain order shows

* `Session.plain_of_stopped`: at the end of reading a paced session is where the plain order is
  after all frames of the stream.
* `Session.exists_returned`: every step of a party leaves less to do (`Session.rank`), so that a
  session comes to its end when its client has nothing more to send, unless its reader panics.
* `Session.plain_of_pacedRun`: a paced session that is over shows what `Server.plain` says of the
  frames of the stream.
-/

namespace LanguageServer

namespace Session

/-! ### The end of a run -/

variable {server : Server} {events : List Event} {s u : Session} {event : Event}

/-- The reader has dealt with the first frames of the stream. -/
theorem readings_isPrefix (h : server.session.PacedRun events s) :
    Event.readings events <+:
      Frame.readings (Frame.readAll server.maxMessageSize (Event.stream events)).1 :=
  readings_of_run h.run

/-- When nothing more is taken, the frames that the reader has not dealt with make no difference. -/
theorem plain_of_isOver (h : server.session.PacedRun events s)
    (ho : (Plain.takeAll { handler := server.handler } (Event.readings events)).isOver = true) :
    server.plain (Event.stream events) =
      Plain.takeAll { handler := server.handler } (Event.readings events) :=
  Plain.takeAll_of_isPrefix (readings_isPrefix h) ho

/-- When the input reads as no frame, the reader has dealt with all frames. -/
theorem plain_of_reads {front : Frame.Front} (h : server.session.PacedRun events s)
    (hr : Frame.Reads server.maxMessageSize s.input [] front) :
    server.plain (Event.stream events) =
        Plain.takeAll { handler := server.handler } (Event.readings events) ∧
      Frame.stop server.maxMessageSize (Event.stream events) = front := by
  obtain ⟨hall, hstop⟩ := (reading_of_run h.run).readAll_eq hr
  exact ⟨congrArg (Plain.takeAll { handler := server.handler }) hall, hstop⟩

/-- When reading has stopped and nothing is in hand, the plain order has come to its end too. -/
theorem plain_of_stopped (hf : server.handler.IsCallFree) (ht : server.requestTimeout = none)
    (h : server.session.PacedRun events s) (hp : s.phase ≠ .reading) (hw : s.works = []) :
    server.plain (Event.stream events) = ⟨s.connection.handler, Tally.of events, false⟩ ∧
      server.ending (Event.stream events) = some s.outcome := by
  have hs := settling_of_pacedRun hf ht h
  have hplain := hs.eq_of_nil hw
  have hstopped := hs.stopped hp
  rw [(reading_of_run h.run).limit_eq] at hstopped
  generalize hfront : Frame.read server.maxMessageSize (!s.inputEnded) s.input = front at hstopped
  generalize hout : s.outcome = outcome at hstopped ⊢
  -- After `exit` the frames that are left make no difference; otherwise there are none left.
  cases hstopped with
  | exits he =>
    have hall := plain_of_isOver h (by rw [hplain]; simp [Plain.isOver, he])
    rw [hplain] at hall
    exact ⟨hall, by simp [Server.ending, hall, he]⟩
  | ends he =>
    have hfinished := (Frame.read_false (by simp [hfront])).trans hfront
    obtain ⟨hall, hstop⟩ := plain_of_reads h (.finished hfinished)
    rw [hplain] at hall
    exact ⟨hall, by simp [Server.ending, hall, he, hstop]⟩
  | breaks he =>
    have hbroken := (Frame.read_false (by simp [hfront])).trans hfront
    obtain ⟨hall, hstop⟩ := plain_of_reads h (.broken hbroken)
    rw [hplain] at hall
    exact ⟨hall, by simp [Server.ending, hall, he, hstop]⟩

/-! ### Every run comes to its end -/

end Session

/-- How far a phase is from the end. -/
def Phase.rank : Phase → Nat
  | .reading => 6
  | .closing => 5
  | .cancelling => 4
  | .releasing => 3
  | .draining => 2
  | .stopping => 1
  | .returned => 0

namespace Session

/-- How many steps of the work in hand are left, when it is alone. -/
def stepsLeft (s : Session) : Nat :=
  match s.works with
  | [] => 0
  | w :: _ => w.stepsLeft s.connection.handler

/-- What is left to read, to wind up, to do and to write, in this order of importance. -/
def rank (s : Session) : Nat × Nat × Nat × Nat :=
  (s.input.length, s.phase.rank, s.stepsLeft + s.queue.length,
    s.connection.outgoing.length + if s.connection.writing then 1 else 0)

/-- A step of a party leaves less to do, and has nothing to do with the client. -/
structure Lowers (s : Session) (event : Event) (u : Session) : Prop where
  rank_lt : Prod.Lex (· < ·) (Prod.Lex (· < ·) (Prod.Lex (· < ·) (· < ·))) u.rank s.rank
  bytes?_eq : event.bytes? = none
  inputEnded_eq : u.inputEnded = s.inputEnded

variable {s u : Session} {event : Event} {p : Plain} {t : Tally} {written : List RpcMessage}

/-- A step of the work in hand leaves less of it. -/
theorem Settling.lowers_of_advances (hs : s.Settling p t written) (h : s.Advances event u) :
    s.Lowers event u := by
  obtain @⟨w, w', connection, current, jobs, hw, ha, hu, hj⟩ := h
  have hlt : stepsLeft { s with connection, current, jobs } < s.stepsLeft := by
    have hlt := (hs.forward hw ha).stepsLeft_lt
    simp only [stepsLeft, hu, hw, Work.left]
    cases w'.isOver with
    | true => exact Nat.zero_lt_of_lt hlt
    | false => exact hlt
  refine ⟨.right _ (.right _ (.left _ _ ?_)), (Work.passage_of_advance ha).1.input_eq.2.1, rfl⟩
  exact Nat.add_lt_add_right hlt _

/-- A message that is taken leaves the bytes behind it alone. -/
theorem take_input (s : Session) (m : RpcMessage) :
    (s.take m).input = s.input ∧ (s.take m).inputEnded = s.inputEnded := by
  cases m with
  | request m | notification m =>
    simp only [take, takeRequest, takeNotification]
    split <;> exact ⟨rfl, rfl⟩
  | response r => exact ⟨rfl, rfl⟩

/-- A step of the reader takes bytes off the input or moves the session on. -/
theorem lowers_of_readerStep (h : s.ReaderStep event u) : s.Lowers event u := by
  cases h with
  | ends hp _ | breaks hp _ =>
    -- The input stays, but the phase is a later one.
    have hrank : Phase.rank .closing < s.phase.rank := by rw [hp]; decide
    exact ⟨.right _ (.left _ _ hrank), rfl, rfl⟩
  | @rejects frame rest answer _ hfront _ =>
    -- A frame is taken off the input, and that is what counts first.
    refine ⟨.left _ _ (Frame.length_lt_of_read hfront), ?_, rfl⟩
    rcases Work.event_send_eq s.connection .reader (.response answer) with he | he <;> rw [he] <;>
      rfl
  | @takes frame rest m _ hfront _ =>
    obtain ⟨hi, he⟩ := take_input { s with input := rest } m
    refine ⟨.left _ _ ?_, rfl, he⟩
    rw [hi]
    exact Frame.length_lt_of_read hfront
  | closes hp | cancels hp | clears hp | drains hp _ _ | returns hp _ =>
    refine ⟨.right _ (.left _ _ ?_), rfl, rfl⟩
    rw [hp]
    exact Nat.lt_succ_self _

/-- A step of the writer leaves less to write. -/
theorem lowers_of_writerStep (h : s.WriterStep event u) : s.Lowers event u := by
  cases h with
  | writes hw ho _ =>
    refine ⟨.right _ (.right _ (.right _ ?_)), rfl, rfl⟩
    simp [ho]
  | ends hw _ =>
    refine ⟨.right _ (.right _ (.right _ ?_)), rfl, rfl⟩
    simp [hw]

/-- Every step of a party leaves less to do, so that there is no end to steps only if the client
goes on. -/
theorem Settling.lowers_of_step {party : Party} (hs : s.Settling p t written)
    (h : s.step party = some (event, u)) : s.Lowers event u := by
  cases party with
  | reader => exact lowers_of_readerStep (readerStep_of_step h)
  | worker =>
    cases workerStep_of_step h with
    | advances hc ha => exact hs.lowers_of_advances (hs.advances_of_current hc ha)
    -- Picking up moves work from the queue, which counts for more than being current.
    | picksUp hc hq =>
      refine ⟨.right _ (.right _ (.left _ _ ?_)), rfl, rfl⟩
      simp [stepsLeft, works, hc, hq]
  | job number => exact hs.lowers_of_advances (hs.advances_of_jobStep (jobStep_of_step h))
  | writer => exact lowers_of_writerStep (writerStep_of_step h)

/-- Some party can take a step. -/
def CanStep (s : Session) : Prop :=
  ∃ party, s.IsPaced (.step party) ∧ (s.step party).isSome = true

/-- The work in hand goes on, unless its callback waits for something that does not come. -/
theorem Settling.canStep_of_work {w : Work} (hs : s.Settling p t written) (hw : s.works = [w])
    (hp : p.stuck = false) : s.CanStep := by
  have hmem : w ∈ s.works := by rw [hw]; exact List.mem_singleton_self w
  have hstuck : (w.completion ⟨s.connection.handler, t, false⟩).stuck = false := by
    rw [← completion_of_singleton hw, hs.completion_eq, hp]
  have hadvance := Work.advance_isSome (hs.unfinished w hmem) (hs.callFree.2 w hmem)
    (hs.isCancelled_eq_false hmem).2 hstuck
  obtain ⟨⟨event, w', c⟩, ha⟩ := Option.isSome_iff_exists.1 hadvance
  cases hc : s.current with
  | some v =>
    -- The worker has the only work there is.
    have hv : v = w := by
      simp only [works, hc, Option.toList_some, List.cons_append, List.cons.injEq] at hw
      exact hw.1
    subst hv
    exact ⟨.worker, trivial, by simp [step, stepWorker, hc, ha]⟩
  | none =>
    cases hq : s.queue with
    | cons v rest =>
      exact ⟨.worker, trivial, by simp [step, stepWorker, hc, hq]⟩
    | nil =>
      -- It is a job, which is the first one found under its number.
      have hj : s.jobs = [w] := by simpa [works, hc, hq] using hw
      have hfind : s.jobs.find? (·.number == w.number) = some w := by simp [hj]
      exact ⟨.job w.number, trivial, by simp [step, stepJob, hfind, ha]⟩

/-- With nothing in hand the reader and the writer go on, unless the reader waits for bytes or
panics. -/
theorem Settling.canStep_of_nil (hs : s.Settling p t written) (hw : s.works = [])
    (hp : s.phase ≠ .returned)
    (hread : s.phase = .reading →
      Frame.read s.maxMessageSize (!s.inputEnded) s.input ≠ .waiting ∧
        Frame.read s.maxMessageSize (!s.inputEnded) s.input ≠ .overflow) : s.CanStep := by
  have hpaced : s.IsPaced (.step .reader) := fun _ => .inl hw
  cases hphase : s.phase with
  | reading =>
    have hread := hread hphase
    -- Neither more bytes are wanted nor does the reader panic, so that it has a step.
    have hsome : s.read.isSome = true := by
      simp only [read]
      split
      · exact absurd ‹_› hread.1
      · exact absurd ‹_› hread.2
      · rfl
      · rfl
      · split <;> rfl
    exact ⟨.reader, hpaced, by simpa only [step, stepReader, hphase] using hsome⟩
  | closing | cancelling | releasing =>
    exact ⟨.reader, hpaced, by simp [step, stepReader, hphase]⟩
  | draining =>
    obtain ⟨hc, hq, -⟩ : s.current = none ∧ s.queue = [] ∧ s.jobs = [] := by
      simpa [works] using hw
    exact ⟨.reader, hpaced, by simp [step, stepReader, hphase, hc, hq]⟩
  | stopping =>
    cases hwriting : s.connection.writing with
    | false =>
      exact ⟨.reader, hpaced, by simp [step, stepReader, hphase, hwriting]⟩
    | true =>
      cases ho : s.connection.outgoing with
      | nil =>
        exact ⟨.writer, trivial, by simp [step, stepWriter, hphase, hwriting, ho]⟩
      | cons m rest =>
        exact ⟨.writer, trivial,
          by simp [step, stepWriter, hwriting, ho, hs.hungUp]⟩
  | returned => exact absurd hphase hp

variable {server : Server} {events : List Event}

/-- The reader does not wait for bytes at the end of the input, nor before an `exit` that is to
come. -/
theorem read_ne_waiting (hf : server.handler.IsCallFree) (ht : server.requestTimeout = none)
    (h : server.session.PacedRun events s) (hp : s.phase = .reading) (hw : s.works = [])
    (hend : s.inputEnded = true ∨ (server.plain (Event.stream events)).tally.exited = true) :
    Frame.read s.maxMessageSize (!s.inputEnded) s.input ≠ .waiting := by
  intro hwaiting
  rw [(reading_of_run h.run).limit_eq] at hwaiting
  cases he : s.inputEnded with
  | true =>
    rw [he] at hwaiting
    exact Frame.read_false_ne_waiting hwaiting
  | false =>
    rw [he] at hwaiting
    -- What waits reads as no frame, so all the frames have been taken, and none was `exit`.
    have hreads : ∃ ending, Frame.Reads server.maxMessageSize s.input [] ending := by
      have hfalse := Frame.read_false_of_waiting hwaiting
      split at hfalse
      · exact ⟨_, .finished hfalse⟩
      · obtain ⟨e, he⟩ := hfalse
        exact ⟨_, .broken he⟩
    obtain ⟨ending, hr⟩ := hreads
    have hs := settling_of_pacedRun hf ht h
    have hover := hs.isOver_eq_false hp hw
    rw [← (plain_of_reads h hr).1] at hover
    simp [he, Plain.isOver] at hend hover
    simp [hover] at hend

/-- The reader panics only at the end of a stream with which the session does not end. -/
theorem read_ne_overflow (hf : server.handler.IsCallFree) (ht : server.requestTimeout = none)
    (h : server.session.PacedRun events s) (hp : s.phase = .reading) (hw : s.works = [])
    (hend : (server.ending (Event.stream events)).isSome = true) :
    Frame.read s.maxMessageSize (!s.inputEnded) s.input ≠ .overflow := by
  intro hoverflow
  rw [(reading_of_run h.run).limit_eq] at hoverflow
  have hfalse := (Frame.read_false (by simp [hoverflow])).trans hoverflow
  obtain ⟨hall, hstop⟩ := plain_of_reads h (.stops hfalse nofun)
  -- The frames before it have been taken, and none was `exit`.
  have hover := (settling_of_pacedRun hf ht h).isOver_eq_false hp hw
  rw [← hall] at hover
  simp [Plain.isOver] at hover
  simp [Server.ending, hover, hstop] at hend

/-- When the client has ended its input or sent an `exit`, the session can always go on by itself
until it is over, unless a callback waits for something that does not come or the reader panics. -/
theorem exists_returned {s : Session} {events : List Event} (hf : server.handler.IsCallFree)
    (ht : server.requestTimeout = none) (h : server.session.PacedRun events s)
    (hstuck : (server.plain (Event.stream events)).stuck = false)
    (hsome : (server.ending (Event.stream events)).isSome = true)
    (hend : s.inputEnded = true ∨ (server.plain (Event.stream events)).tally.exited = true) :
    ∃ more u, s.PacedRun more u ∧ Event.stream more = [] ∧ u.phase = .returned := by
  -- Some party can take a step, and every step lowers the rank.
  by_cases hp : s.phase = .returned
  · exact ⟨[], s, .start, rfl, hp⟩
  have hs := settling_of_pacedRun hf ht h
  have hnot :
      (Plain.takeAll { handler := server.handler } (Event.readings events)).stuck = false := by
    cases hn : (Plain.takeAll { handler := server.handler } (Event.readings events)).stuck with
    | false => rfl
    | true =>
      rw [plain_of_isOver h (by simp [Plain.isOver, hn]), hn] at hstuck
      cases hstuck
  have hcan : s.CanStep := by
    rcases hs.works_cases with hw | ⟨w, hw⟩
    · exact hs.canStep_of_nil hw hp fun hr =>
        ⟨read_ne_waiting hf ht h hr hw hend, read_ne_overflow hf ht h hr hw hsome⟩
    · exact hs.canStep_of_work hw hnot
  obtain ⟨party, hpaced, hgoes⟩ := hcan
  obtain ⟨⟨event, u⟩, hstep⟩ := Option.isSome_iff_exists.1 hgoes
  have hlower := hs.lowers_of_step hstep
  have hstream : Event.stream (events ++ [event]) = Event.stream events := by
    rw [Event.stream_append, hlower.bytes?_eq]
    exact List.append_nil _
  have hmove : s.move (.step party) = some (event, u) := hstep
  obtain ⟨more, v, hmore, hnone, hv⟩ := exists_returned hf ht (.next _ h hpaced hmove)
    (by rwa [hstream]) (by rwa [hstream]) (by rwa [hstream, hlower.inputEnded_eq])
  have hfirst : s.PacedRun [event] u := .next _ .start hpaced hmove
  refine ⟨_, v, hfirst.trans hmore, ?_, hv⟩
  simpa [Event.stream, hlower.bytes?_eq] using hnone
termination_by s.rank
decreasing_by exact hlower.rank_lt

/-- A session in which the work on each message is done before the next frame is read shows what the
plain order makes of the frames of the stream.  A stream of frames has an ending; there is none only
where the reader panics. -/
theorem plain_of_pacedRun (hf : server.handler.IsCallFree) (ht : server.requestTimeout = none)
    (h : server.session.PacedRun events s) :
    (s.phase = .returned →
      Event.written events = (server.plain (Event.stream events)).tally.sent ∧
      s.connection.handler = (server.plain (Event.stream events)).handler ∧
      Event.invocations events = (server.plain (Event.stream events)).tally.invoked ∧
      Event.notes events = (server.plain (Event.stream events)).tally.notes ∧
      server.ending (Event.stream events) = some s.outcome) ∧
    ((server.plain (Event.stream events)).stuck = false →
      (server.ending (Event.stream events)).isSome = true →
      s.inputEnded = true ∨ (server.plain (Event.stream events)).tally.exited = true →
      ∃ more u, s.PacedRun more u ∧ Event.stream more = [] ∧ u.phase = .returned) ∧
    ((server.plain (Event.stream events)).tally.exited = true → ∀ more,
      server.plain (Event.stream events ++ more) = server.plain (Event.stream events) ∧
      server.ending (Event.stream events ++ more) = some (.ok ())) ∧
    (∀ frames, (∀ f ∈ frames, f.IsWritable server.maxMessageSize) →
      server.plain (Frame.stream frames) =
        Plain.takeAll { handler := server.handler } (Frame.readings frames) ∧
      server.ending (Frame.stream frames) = some (.ok ())) ∧
    (∀ body answer, RpcMessage.ofBody body = .error answer →
      answer.result = none ∧ ∃ error, answer.error = some error ∧
        ((∃ fault, Json.parse body = .error fault) ∧ answer.id = none ∧ error.code = -32700 ∨
          ∃ j, Json.parse body = .ok j ∧
            answer.id = ((j.member? "id").bind fun id => (IntOrString.codec.ofJson id).toOption) ∧
            error.code = -32600)) := by
  refine ⟨fun hp => ?_, exists_returned hf ht h, fun he more => ?_,
    fun _ hw => ⟨Server.plain_stream hw, Server.ending_stream hw⟩,
    fun _ _ => RpcMessage.cases_of_ofBody⟩
  · have hs := settling_of_pacedRun hf ht h
    have hw : s.works = [] := hs.woundUp (by rw [hp]; rfl)
    -- The writer has stopped, and it stops only when all is written.
    have hout : s.connection.outgoing = [] := (hs.writing (hs.returned hp)).2
    obtain ⟨hplain, hending⟩ := plain_of_stopped hf ht h (by rw [hp]; decide) hw
    have hwritten := hs.written_eq
    rw [hout, List.append_nil] at hwritten
    rw [hplain]
    exact ⟨hwritten, rfl, rfl, rfl, hending⟩
  · have hover : (server.plain (Event.stream events)).isOver = true := by simp [Plain.isOver, he]
    have hsame := Server.plain_append hover more
    exact ⟨hsame, by simp [Server.ending, hsame, he]⟩

/-- A server whose callback for one method sends a notification. -/
def plainServer : Server where
  handler := (Handler.ofConfig {}).register "ping" <|
    .request Codec.ignored Codec.unit fun _ _ => do
      let _ ← Act.notify "pong" .null
      pure (.ok ())

/-- A body that is not JSON, `initialize`, a request for the callback, and `exit`, with something
behind it. -/
def plainFrames : List Frame :=
  ["\x7b",
    "\x7b\"id\":1,\"method\":\"initialize\",\"params\":\x7b\"capabilities\":\x7b\x7d\x7d\x7d",
    "\x7b\"id\":2,\"method\":\"ping\"\x7d", "\x7b\"method\":\"exit\"\x7d",
    "\x7b\"id\":3,\"method\":\"shutdown\"\x7d"].map Frame.ofContent

/-- The bytes of these frames. -/
def plainBytes : List UInt8 := Frame.stream plainFrames

/-- What the plain order makes of them. -/
theorem plain_plainBytes :
    (plainServer.plain plainBytes).stuck = false ∧
      (plainServer.plain plainBytes).tally.exited = true ∧
      (plainServer.plain plainBytes).tally.sent.length = 4 ∧
      (plainServer.plain plainBytes).tally.invoked = [0, 1] ∧
      (plainServer.plain plainBytes).handler.life = { state := .exited } := by
  have hw : ∀ f ∈ plainFrames, f.IsWritable plainServer.maxMessageSize := by
    intro f hf
    obtain ⟨body, hbody, rfl⟩ := List.mem_map.1 hf
    have hsize : ∀ body ∈ plainFrames.map (·.content), (Text.utf8 body).length < 100 := by
      decide +kernel
    have hlt := hsize body (List.mem_map.2 ⟨_, hf, rfl⟩)
    have hlimit : 100 ≤ plainServer.maxMessageSize := by decide
    exact Frame.isWritable_ofContent (Nat.le_trans (Nat.le_of_lt hlt) (by decide))
      (Nat.le_trans (Nat.le_of_lt hlt) hlimit)
  -- The frames need not be read from their bytes.
  rw [plainBytes, Server.plain_stream hw]
  decide +kernel

/-- Four messages are written, two callbacks are started, and the exit is no clean one. -/
theorem plain_of_plainBytes :
    ∃ events s, plainServer.session.PacedRun events s ∧ s.phase = .returned ∧
      (Event.written events).length = 4 ∧ Event.invocations events = [0, 1] ∧
      s.connection.handler.life = { state := .exited } := by
  have hf : plainServer.handler.IsCallFree :=
    (Handler.isCallFree_ofConfig {}).register
      (Entry.isCallFree_request fun _ _ =>
        (Act.isCallFree_notify _ _).bind fun _ => Act.isCallFree_pure _) "ping"
  have hstart : plainServer.session.PacedRun ([] ++ [.received plainBytes])
      (plainServer.session.receive plainBytes) := .next (.receive plainBytes) .start rfl rfl
  have hstream : Event.stream ([] ++ [.received plainBytes]) = plainBytes := by
    simp [Event.stream, Event.bytes?]
  obtain ⟨hstuck, hexited, hsent, hinvoked, hlife⟩ := plain_plainBytes
  have hending : plainServer.ending plainBytes = some (.ok ()) := if_pos hexited
  obtain ⟨-, hreturns, -⟩ := plain_of_pacedRun hf rfl hstart
  rw [hstream] at hreturns
  -- With `exit` read, the run can be led to its end without further input.
  obtain ⟨more, s, hmore, hnone, hp⟩ := hreturns hstuck (by rw [hending]; rfl) (.inr hexited)
  have hrun := hstart.trans hmore
  have hall : Event.stream (([] ++ [.received plainBytes]) ++ more) = plainBytes := by
    rw [Event.stream] at hnone ⊢
    simp [Event.bytes?, hnone]
  obtain ⟨hshows, -⟩ := plain_of_pacedRun hf rfl hrun
  rw [hall] at hshows
  obtain ⟨hwritten, hhandler, hinvocations, -⟩ := hshows hp
  refine ⟨_, s, hrun, hp, ?_, ?_, ?_⟩
  · rw [hwritten, hsent]
  · rw [hinvocations, hinvoked]
  · rw [hhandler, hlife]

end Session

end LanguageServer
