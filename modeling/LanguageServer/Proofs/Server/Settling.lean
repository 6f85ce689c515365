import LanguageServer.Proofs.Server.Effect
import LanguageServer.Proofs.Server.Order
import LanguageServer.Proofs.Server.Plain

/-!
# Sessions that handle one message after the other

A `Session.PacedRun` is a run in which the work on a message is done before the next frame is read.
`Session.settling_of_pacedRun` says where such a run is compared with the plain order of the frames.

The invariant is `Session.Settling`: what is left of the work in hand, if there is any, takes the
handler and what has shown so far to where the plain order is after the frames that were read.  Work
that is in hand alone `Advances` by parts of what is left; the reader hands a message to it only
when nothing is in hand; the writer and the client leave it alone.
-/

namespace LanguageServer

/-- Without a time for requests no message runs out of time. -/
theorem RpcMessage.timeout_of_context {m : RpcMessage} {x : Context}
    (h : m.context? none = some x) : x.timeout = none := by
  cases m with
  | request m =>
    rw [← Option.some.inj h]
    exact ite_self _
  | notification m =>
    rw [← Option.some.inj h]
    rfl
  | response r => cases h

/-- The frames that a plain order has taken, after an event. -/
def Plain.follow (p : Plain) (event : Event) : Plain :=
  match event.reading? with
  | some reading => p.take reading
  | none => p

/-- An event in which nothing is read leaves the plain order where it is. -/
theorem Plain.follow_of_reading?_eq_none {p : Plain} {event : Event} (h : event.reading? = none) :
    p.follow event = p := by
  simp only [follow, h]

/-- The plain order takes what is read event after event. -/
theorem Plain.takeAll_readings (p : Plain) (events : List Event) (event : Event) :
    p.takeAll (Event.readings (events ++ [event])) =
      (p.takeAll (Event.readings events)).follow event := by
  rw [Event.readings_append, takeAll_append, follow]
  cases event.reading? <;> rfl

namespace Session

/-- What may happen while the work on each message is done before the next frame is read.  The
client sends nothing after the end of its input, and never stops receiving; at the end of reading
the notifications before it may still be in hand, since no message waits for them. -/
def IsPaced (s : Session) : Move → Prop
  | .receive _ => s.inputEnded = false
  | .hangUp => False
  | .step .reader => s.phase = .reading → s.works = [] ∨
    (∀ frame rest, Frame.read s.maxMessageSize (!s.inputEnded) s.input ≠ .frame frame rest) ∧
      ∀ w ∈ s.works, w.context.id = none
  | .endInput | .step .worker | .step (.job _) | .step .writer => True

/-- A paced reader stops only when no request is in hand. -/
theorem IsPaced.notices {s : Session} (h : s.IsPaced (.step .reader)) (hp : s.phase = .reading) :
    ∀ w ∈ s.works, w.context.id = none := by
  rcases h hp with hw | ⟨-, hn⟩
  · simp [hw]
  · exact hn

/-- A paced reader takes a frame only when nothing is in hand. -/
theorem IsPaced.works_eq_nil {s : Session} {frame : Frame} {rest : List UInt8}
    (h : s.IsPaced (.step .reader)) (hp : s.phase = .reading)
    (hf : Frame.read s.maxMessageSize (!s.inputEnded) s.input = .frame frame rest) :
    s.works = [] :=
  (h hp).resolve_right fun hn => hn.1 _ _ hf

/-- The events on the way from a session to a later state of it, when the work on each message is
done before the next frame is read. -/
inductive PacedRun (s : Session) : List Event → Session → Prop
  | start : PacedRun s [] s
  | next {events : List Event} {t u : Session} {event : Event} (m : Move) :
    PacedRun s events t → t.IsPaced m → t.move m = some (event, u) →
    PacedRun s (events ++ [event]) u

/-- A paced run is a run. -/
theorem PacedRun.run {s t : Session} {events : List Event} (h : s.PacedRun events t) :
    s.Run events t := by
  induction h with
  | start => exact .start
  | next m _ _ hm ih => exact .next m ih hm

/-- A paced run after a paced run is one. -/
theorem PacedRun.trans {s t u : Session} {before after : List Event} (first : s.PacedRun before t)
    (second : t.PacedRun after u) : s.PacedRun (before ++ after) u := by
  induction second with
  | start => simpa using first
  | next m _ hp h ih =>
    rw [← List.append_assoc]
    exact .next m ih hp h

/-- What the work in hand still comes to, when it is alone. -/
def completion (s : Session) (t : Tally) : Plain :=
  match s.works with
  | [] => ⟨s.connection.handler, t, false⟩
  | w :: _ => w.completion ⟨s.connection.handler, t, false⟩

/-- Without work in hand nothing is left. -/
theorem completion_of_nil {s : Session} (h : s.works = []) (t : Tally) :
    s.completion t = ⟨s.connection.handler, t, false⟩ := by
  simp only [completion, h]

/-- What is left of work that is in hand alone is all that is left. -/
theorem completion_of_singleton {s : Session} {w : Work} (h : s.works = [w]) (t : Tally) :
    s.completion t = w.completion ⟨s.connection.handler, t, false⟩ := by
  simp only [completion, h]

/-- Why reading has stopped, after `exit` or with something at the front of the input, and what
the outcome is. -/
inductive Stopped (exited : Bool) : Frame.Front → Outcome Unit → Prop
  | exits {front : Frame.Front} : exited = true → Stopped exited front (.ok ())
  | ends : exited = false → Stopped exited .finished (.ok ())
  | breaks {e : LspError} : exited = false → Stopped exited (.broken e) (.error e)

/-- The reason stays as long as the front of the input does. -/
theorem Stopped.of_front {exited : Bool} {front front' : Frame.Front} {outcome : Outcome Unit}
    (h : Stopped exited front outcome) (hf : front = .finished → front' = .finished)
    (hb : ∀ e, front = .broken e → front' = .broken e) : Stopped exited front' outcome := by
  cases h with
  | exits he => exact .exits he
  | ends he =>
    rw [hf rfl]
    exact .ends he
  | breaks he =>
    rw [hb _ rfl]
    exact .breaks he

/-- What holds of the work in hand: it is on one message at most, nothing gives it up, and no other
request is in flight. -/
structure Hand (s : Session) : Prop where
  alone : s.works.length ≤ 1
  unfinished : ∀ w ∈ s.works, w.isOver = false
  callFree : s.connection.handler.IsCallFree ∧ ∀ w ∈ s.works, w.IsCallFree
  timeless : s.requestTimeout = none ∧ ∀ w ∈ s.works, w.context.timeout = none
  cancelled : s.connection.cancelled = []
  inFlight : ∀ p ∈ s.connection.inFlight, ∃ w ∈ s.works, w.Tracks p.1
  jobs : ∀ w ∈ s.jobs, w.context.id ≠ none

/-- What follows from how far the session is, when such messages have been taken. -/
structure Standing (t : Tally) (s : Session) : Prop where
  hungUp : s.hungUp = false
  writing : s.connection.writing = false → s.phase.isWoundUp = true ∧ s.connection.outgoing = []
  returned : s.phase = .returned → s.connection.writing = false
  reading : s.phase = .reading → t.exited = false
  notices : s.phase ≠ .reading → ∀ w ∈ s.works, w.context.id = none
  stopped : s.phase ≠ .reading →
    Stopped t.exited (Frame.read s.maxMessageSize (!s.inputEnded) s.input) s.outcome
  woundUp : s.phase.isWoundUp = true → s.works = []

/-- At most one message is in hand, and what is left of the work on it leads to where the plain
order is. -/
structure Settling (p : Plain) (t : Tally) (written : List RpcMessage) (s : Session) : Prop
    extends Hand s, Standing t s where
  completion_eq : s.completion t = p
  written_eq : written ++ s.connection.outgoing = t.sent
  taken_eq : t.taken = s.taken

/-- A step of the work in hand, when it is alone. -/
inductive Advances (s : Session) : Event → Session → Prop
  | mk {event : Event} {w w' : Work} {connection : Connection} {current : Option Work}
      {jobs : List Work} :
    s.works = [w] → w.advance s.connection = some (event, w', connection) →
    works { s with connection, current, jobs } = w'.left →
    (∀ v ∈ jobs, v.context.id ≠ none) →
    Advances s event { s with connection, current, jobs }

namespace Settling

variable {p : Plain} {t : Tally} {written : List RpcMessage} {s u : Session} {event : Event}

/-- Nothing is in hand, or the work on one message. -/
theorem works_cases (hs : s.Settling p t written) : s.works = [] ∨ ∃ w, s.works = [w] := by
  have ha := hs.alone
  cases hw : s.works with
  | nil => exact .inl rfl
  | cons w rest =>
    rw [hw] at ha
    cases rest with
    | nil => exact .inr ⟨w, rfl⟩
    | cons _ _ => simp at ha

/-- No request is in flight unless the work on it is in hand. -/
theorem inFlight_eq_nil (hs : s.Settling p t written) (hw : ∀ w ∈ s.works, w.context.id = none) :
    s.connection.inFlight = [] := by
  refine List.eq_nil_iff_forall_not_mem.2 fun p hp => ?_
  obtain ⟨w, hmem, ht, -⟩ := hs.inFlight p hp
  simp [hw w hmem] at ht

/-- The writer is there until the session is wound up. -/
theorem writing_of_not_isWoundUp (hs : s.Settling p t written) (hp : s.phase.isWoundUp = false) :
    s.connection.writing = true := by
  cases hw : s.connection.writing with
  | true => rfl
  | false =>
    have hwound := (hs.writing hw).1
    simp [hp] at hwound

/-- With work in hand the session is not wound up. -/
theorem isWoundUp_eq_false {w : Work} (hs : s.Settling p t written) (hw : s.works = [w]) :
    s.phase.isWoundUp = false := by
  cases hp : s.phase.isWoundUp with
  | false => rfl
  | true => simp [hs.woundUp hp] at hw

/-- Nothing gives a message up. -/
theorem isCancelled_eq_false {w : Work} (hs : s.Settling p t written) (hw : w ∈ s.works) :
    w.context.isCancelled (s.connection.isCancelled w.number) = false ∧
      w.context.isCancelled false = false := by
  have ht := hs.timeless.2 w hw
  simp [Context.isCancelled, Context.hasExpired, ht, Connection.isCancelled, hs.cancelled]

/-- A step of the work in hand takes a part of what is left of it. -/
theorem forward {w w' : Work} {c : Connection} (hs : s.Settling p t written) (hw : s.works = [w])
    (ha : w.advance s.connection = some (event, w', c)) : w.Forward s.connection event w' c := by
  have hmem : w ∈ s.works := by rw [hw]; exact List.mem_singleton_self w
  -- With work in hand the session is not wound up, so the writer is there for what is sent.
  have hwriting := hs.writing_of_not_isWoundUp (hs.isWoundUp_eq_false hw)
  exact Work.forward_of_advance ha hwriting (hs.isCancelled_eq_false hmem).1
    (hs.callFree.2 w hmem) hs.callFree.1

/-- What is left of the work after a step is all that is in hand. -/
theorem hand_of_advances (hs : s.Settling p t written) (h : s.Advances event u) : u.Hand := by
  obtain @⟨w, w', connection, current, jobs, hw, ha, hu, hj⟩ := h
  have hmem : w ∈ s.works := by rw [hw]; exact List.mem_singleton_self w
  have hf := hs.forward hw ha
  have hx := (Work.passage_of_advance ha).1.number_eq.2
  -- Whatever work there is, it is what the step has left of the only one.
  have hleft (v : Work) (hv : v ∈ works { s with connection, current, jobs }) :
      w'.isOver = false ∧ v = w' := Work.mem_left.1 (hu ▸ hv)
  constructor
  case alone =>
    rw [hu]
    simp only [Work.left]
    split <;> simp
  case unfinished =>
    intro v hv
    obtain ⟨ho, rfl⟩ := hleft v hv
    exact ho
  case callFree =>
    refine ⟨hf.callFree.2, fun v hv => ?_⟩
    obtain ⟨-, rfl⟩ := hleft v hv
    exact hf.callFree.1
  case timeless =>
    refine ⟨hs.timeless.1, fun v hv => ?_⟩
    obtain ⟨-, rfl⟩ := hleft v hv
    rw [hx]
    exact hs.timeless.2 w hmem
  case cancelled => exact hf.cancelled_eq.trans hs.cancelled
  case inFlight =>
    intro q hq
    -- All that is in flight belongs to this work.
    have htracks (q : Id × Nat) (hq : q ∈ s.connection.inFlight) : w.Tracks q.1 := by
      obtain ⟨v, hv, ht⟩ := hs.inFlight q hq
      rw [hw, List.mem_singleton] at hv
      rwa [← hv]
    have ht := hf.tracks htracks q hq
    refine ⟨w', ?_, ht⟩
    rw [hu]
    exact Work.mem_left.2 ⟨ht.isOver_eq_false, rfl⟩
  case jobs => exact hj

/-- A step of the work leaves the session as far as it is. -/
theorem standing_of_advances (hs : s.Settling p t written) (h : s.Advances event u) :
    u.Standing (t.record event) := by
  obtain @⟨w, w', connection, current, jobs, hw, ha, hu, hj⟩ := h
  have hmem : w ∈ s.works := by rw [hw]; exact List.mem_singleton_self w
  -- As long as there is work the session is not wound up, which settles what is asked of one that
  -- is.
  have hopen := hs.isWoundUp_eq_false hw
  have hwriting := hs.writing_of_not_isWoundUp hopen
  obtain ⟨hp, hq⟩ := Work.passage_of_advance ha
  have hexited := (t.record_of_arrival?_eq_none hp.input_eq.1).2
  constructor
  case hungUp => exact hs.hungUp
  case writing =>
    intro hno
    rw [show connection.writing = true from hq.writing_eq.trans hwriting] at hno
    cases hno
  case returned =>
    intro hret
    rw [show s.phase = .returned from hret] at hopen
    cases hopen
  case reading => exact fun hr => hexited.trans (hs.reading hr)
  case notices =>
    intro hr v hv
    obtain ⟨-, rfl⟩ := Work.mem_left.1 (hu ▸ hv)
    rw [hp.number_eq.2]
    exact hs.notices hr w hmem
  case stopped =>
    rw [hexited]
    exact hs.stopped
  case woundUp =>
    intro hwound
    rw [show s.phase.isWoundUp = true from hwound] at hopen
    cases hopen

/-- A step of the work in hand leads to where the plain order is. -/
theorem next_of_advances (hs : s.Settling p t written) (h : s.Advances event u) :
    u.Settling (p.follow event) (t.record event) (written ++ event.wrote?.toList) := by
  refine { hs.hand_of_advances h, hs.standing_of_advances h with
    completion_eq := ?_, written_eq := ?_, taken_eq := ?_ }
  all_goals
    obtain @⟨w, w', connection, current, jobs, hw, ha, hu, hj⟩ := h
    obtain ⟨hp, hq⟩ := Work.passage_of_advance ha
  · -- What is to come of the work has not changed.
    rw [Plain.follow_of_reading?_eq_none hp.input_eq.2.2, ← hs.completion_eq,
      completion_of_singleton hw t, ← (hs.forward hw ha).completion_eq t]
    simp only [completion, hu, Work.left]
    cases ho : w'.isOver with
    | true => simp [Work.completion_of_isOver ho]
    | false => simp
  · rw [hp.wrote?_eq_none, t.record_sent, ← hs.written_eq]
    simp [hq.outgoing_eq]
  · exact (t.record_of_arrival?_eq_none hp.input_eq.1).1.trans hs.taken_eq

/-- An event that shows nothing adds nothing. -/
theorem add_silent (hs : u.Settling p t written) (hr : event.reading? = none)
    (hw : event.wrote? = none) (ht : t.record event = t) :
    u.Settling (p.follow event) (t.record event) (written ++ event.wrote?.toList) := by
  rw [Plain.follow_of_reading?_eq_none hr, hw, ht, Option.toList_none, List.append_nil]
  exact hs

/-- The work in hand goes from hand to hand. -/
theorem of_works_eq {current : Option Work} {queue jobs : List Work} (hs : s.Settling p t written)
    (hu : works { s with current, queue, jobs } = s.works)
    (hj : ∀ w ∈ jobs, w.context.id ≠ none) :
    Settling p t written { s with current, queue, jobs } :=
  { hs with
    completion_eq := by rw [← hs.completion_eq, completion, completion, hu]
    alone := hu ▸ hs.alone
    unfinished := hu ▸ hs.unfinished
    callFree := hu ▸ hs.callFree
    timeless := hu ▸ hs.timeless
    inFlight := hu ▸ hs.inFlight
    notices := hu ▸ hs.notices
    jobs := hj
    woundUp := hu ▸ hs.woundUp }

/-- What the worker has in hand is alone. -/
theorem advances_of_current {w w' : Work} {c : Connection} (hs : s.Settling p t written)
    (hc : s.current = some w) (ha : w.advance s.connection = some (event, w', c)) :
    s.Advances event
      { s with connection := c, current := if w'.isOver then none else some w' } := by
  have halone := hs.alone
  simp only [works, hc, Option.toList_some, List.length_append, List.length_singleton] at halone
  -- The current work is the only one, so that nothing waits or runs beside it.
  have hq : s.queue = [] := List.eq_nil_of_length_eq_zero (by omega)
  have hj : s.jobs = [] := List.eq_nil_of_length_eq_zero (by omega)
  have hw : s.works = [w] := by simp [works, hc, hq, hj]
  have hu : works { s with connection := c, current := if w'.isOver then none else some w' } =
      w'.left := by
    cases ho : w'.isOver <;> simp [works, Work.left, hq, hj, ho]
  exact .mk hw ha hu hs.jobs

/-- A step of the worker leads to where the plain order is. -/
theorem next_of_workerStep (hs : s.Settling p t written) (h : s.WorkerStep event u) :
    u.Settling (p.follow event) (t.record event) (written ++ event.wrote?.toList) := by
  cases h with
  | advances hc ha => exact hs.next_of_advances (hs.advances_of_current hc ha)
  | @picksUp w rest hc hq =>
    have hu : works { s with queue := rest, current := some w } = s.works := by
      simp [works, hc, hq]
    exact (hs.of_works_eq hu hs.jobs).add_silent rfl rfl rfl

/-- A job takes a step of its work. -/
theorem advances_of_jobStep {number : Nat} (hs : s.Settling p t written)
    (h : s.JobStep number event u) : s.Advances event u := by
  obtain @⟨w, w', c, hfind, hadvance⟩ := h
  have hmem := List.mem_of_find?_eq_some hfind
  -- Nothing but this job is in hand.
  have ha := hs.alone
  have hpos := List.length_pos_of_mem hmem
  simp only [works, List.length_append] at ha
  have hc : s.current = none := by
    cases hc : s.current with
    | none => rfl
    | some v =>
      simp only [hc, Option.toList_some, List.length_singleton] at ha
      omega
  have hq : s.queue = [] := List.eq_nil_of_length_eq_zero (by omega)
  have hj : s.jobs = [w] := by
    obtain ⟨v, hv⟩ := List.length_eq_one_iff.1 (show s.jobs.length = 1 by omega)
    rw [hv, List.mem_singleton] at hmem
    rw [hv, hmem]
  have hw : s.works = [w] := by simp [works, hc, hq, hj]
  have hnumber := (Work.passage_of_advance hadvance).1.number_eq
  have hput : putJob w' s.jobs = w'.left := by
    rw [hj]
    cases ho : w'.isOver <;> simp [putJob, Work.left, ho, hnumber.1]
  have hu : works { s with connection := c, jobs := putJob w' s.jobs } = w'.left := by
    simp [works, hc, hq, hput]
  have hid : ∀ v ∈ putJob w' s.jobs, v.context.id ≠ none := by
    intro v hv
    rw [hput] at hv
    rw [(Work.mem_left.1 hv).2, hnumber.2]
    exact hs.jobs w hmem
  exact .mk hw hadvance hu hid

/-- A step of the writer leads to where the plain order is. -/
theorem next_of_writerStep (hs : s.Settling p t written) (h : s.WriterStep event u) :
    u.Settling (p.follow event) (t.record event) (written ++ event.wrote?.toList) := by
  cases h with
  | @writes m rest hw ho _ =>
    have hsent : written ++ [m] ++ rest = t.sent := by
      rw [← hs.written_eq, ho]
      simp
    exact { hs with
      written_eq := hsent
      writing := fun hno => absurd (hw.symm.trans hno) (by decide) }
  | ends hw hwhy =>
    -- The client has not hung up, so that the writer was told to stop.
    obtain ⟨ho, hp⟩ := hwhy.resolve_left fun hh => absurd (hs.hungUp.symm.trans hh.2) (by decide)
    have hsettling : Settling p t written
        { s with connection := { s.connection with writing := false, outgoing := [] } } :=
      { hs with
        written_eq := by rw [← hs.written_eq, ho]
        writing := fun _ => ⟨by rw [hp]; rfl, rfl⟩
        returned := fun _ => rfl }
    exact hsettling.add_silent rfl rfl rfl

/-! ### The client -/

/-- Bytes that come change nothing of what has been read. -/
theorem next_receive {bytes : List UInt8} (hs : s.Settling p t written)
    (he : s.inputEnded = false) : (s.receive bytes).Settling p t written := by
  -- What stands at the front of the input stays there when more comes.
  have hfront {front : Frame.Front}
      (hf : Frame.read s.maxMessageSize (!s.inputEnded) s.input = front) (hw : front ≠ .waiting) :
      Frame.read s.maxMessageSize (!s.inputEnded) (s.input ++ bytes) = front.extend bytes := by
    rw [he] at hf ⊢
    subst hf
    exact Frame.read_append hw true bytes
  exact { hs with
    stopped := fun hr => (hs.stopped hr).of_front (fun hf => hfront hf (by simp))
      fun _ hf => hfront hf (by simp) }

/-- The end of the input changes nothing of what has been read. -/
theorem next_endInput (hs : s.Settling p t written) : s.endInput.Settling p t written := by
  -- It is there too when nothing more is to come.
  have hfront {front : Frame.Front}
      (hf : Frame.read s.maxMessageSize (!s.inputEnded) s.input = front) (hw : front ≠ .waiting) :
      Frame.read s.maxMessageSize false s.input = front := by
    subst hf
    exact Frame.read_false hw
  exact { hs with
    stopped := fun hr => (hs.stopped hr).of_front (fun hf => hfront hf (by simp))
      fun _ hf => hfront hf (by simp) }

/-! ### The reader -/

/-- The reader winds the session up. -/
theorem next_winds {connection : Connection} {phase : Phase} (hs : s.Settling p t written)
    (hr : s.phase ≠ .reading) (hp : phase ≠ .reading)
    (hc : connection.handler = s.connection.handler) (hcancelled : connection.cancelled = [])
    (hi : connection.inFlight = s.connection.inFlight)
    (ho : connection.outgoing = s.connection.outgoing)
    (hw : connection.writing = s.connection.writing)
    (hwound : s.phase.isWoundUp = true → phase.isWoundUp = true)
    (hreturned : phase = .returned → s.connection.writing = false)
    (hdone : phase.isWoundUp = true → s.works = []) :
    Settling p t written { s with connection, phase } :=
  { hs with
    completion_eq := by
      rw [← hs.completion_eq]
      simp only [completion, hc]
      rfl
    written_eq := by rw [ho]; exact hs.written_eq
    callFree := ⟨by rw [hc]; exact hs.callFree.1, hs.callFree.2⟩
    cancelled := hcancelled
    inFlight := by rw [hi]; exact hs.inFlight
    writing := fun hno => by
      obtain ⟨h, h'⟩ := hs.writing (hw.symm.trans hno)
      exact ⟨hwound h, ho.trans h'⟩
    returned := fun h => hw.trans (hreturned h)
    reading := fun h => absurd h hp
    notices := fun _ => hs.notices hr
    stopped := fun _ => hs.stopped hr
    woundUp := hdone }

/-- When reading has stopped, all that is left is with the worker. -/
theorem jobs_eq_nil (hs : s.Settling p t written) (hr : s.phase ≠ .reading) : s.jobs = [] := by
  refine List.eq_nil_iff_forall_not_mem.2 fun w hw => ?_
  have hmem : w ∈ s.works := by simp [works, hw]
  exact hs.jobs w hw (hs.notices hr w hmem)

/-- Calls are refused, or those that wait are given up: nobody calls. -/
theorem next_winds_calls {phase : Phase} (hs : s.Settling p t written) (hr : s.phase ≠ .reading)
    (calls : Calls) (hopen : s.phase.isWoundUp = false) (hp : phase ≠ .reading)
    (hp' : phase.isWoundUp = false) :
    Settling p t written { s with phase, connection := { s.connection with calls } } := by
  have hwound : ¬ phase.isWoundUp = true := by simp [hp']
  refine hs.next_winds hr hp rfl hs.cancelled rfl rfl rfl (absurd · (by simp [hopen])) ?_
    (absurd · hwound)
  rintro rfl
  exact absurd rfl hwound

/-- Reading stops at the end of the stream, or at something that is no frame. -/
theorem next_stops {outcome : Outcome Unit} (hs : s.Settling p t written) (hp : s.phase = .reading)
    (hn : ∀ w ∈ s.works, w.context.id = none)
    (ho : Stopped t.exited (Frame.read s.maxMessageSize (!s.inputEnded) s.input) outcome) :
    (s.stop outcome).Settling p t written :=
  { hs with
    writing := fun hno => by
      -- A session that reads is not wound up, so that messages are written.
      have hwound := (hs.writing hno).1
      simp [hp, Phase.isWoundUp] at hwound
    returned := (absurd · (by simp [stop]))
    reading := (absurd · (by simp [stop]))
    notices := fun _ => hn
    stopped := fun _ => ho
    woundUp := (absurd · (by simp [stop, Phase.isWoundUp])) }

/-- Between two messages the plain order is where the session is. -/
theorem eq_of_nil (hs : s.Settling p t written) (hw : s.works = []) :
    p = ⟨s.connection.handler, t, false⟩ := by
  rw [← hs.completion_eq, completion_of_nil hw]

/-- The plain order goes on as long as the session reads. -/
theorem isOver_eq_false (hs : s.Settling p t written) (hp : s.phase = .reading)
    (hw : s.works = []) : p.isOver = false := by
  rw [hs.eq_of_nil hw]
  simp [Plain.isOver, hs.reading hp]

/-- A body that holds no message is answered. -/
theorem next_rejects {answer : ResponseMessage} {input : List UInt8} (hs : s.Settling p t written)
    (hp : s.phase = .reading) (hw : s.works = []) :
    Settling (p.take (.error answer)) (t.send (.response answer)) written
      { s with
        input
        connection := { s.connection with
          outgoing := s.connection.outgoing ++ [.response answer] } } := by
  have hwriting := hs.writing_of_not_isWoundUp (by rw [hp]; rfl)
  rw [Plain.take_error (hs.isOver_eq_false hp hw), hs.eq_of_nil hw]
  exact { hs with
    completion_eq := completion_of_nil hw _
    written_eq := by
      rw [← List.append_assoc, hs.written_eq]
      rfl
    -- The writer does not stop before the session winds up.
    writing := fun hno => absurd (hwriting.symm.trans hno) (by decide)
    stopped := fun hr => absurd hp hr }

/-- A response changes nothing that shows. -/
theorem next_resolves {r : ResponseMessage} {input : List UInt8} (hs : s.Settling p t written)
    (hp : s.phase = .reading) (hw : s.works = []) :
    Settling (p.take (.ok (.response r))) (t.take (.response r)) written
      { s with
        input
        taken := s.taken + 1
        connection := { s.connection with calls := s.connection.calls.complete r } } := by
  -- With nothing at work, the plain account has caught up, and reads the same response.
  rw [Plain.take_response (hs.isOver_eq_false hp hw), hs.eq_of_nil hw]
  exact { hs with
    completion_eq := completion_of_nil hw _
    taken_eq := congrArg (· + 1) hs.taken_eq
    reading := fun hr => by simp [Tally.take, RpcMessage.isExit, hs.reading hr]
    stopped := fun hr => absurd hp hr }

/-- A message that has just been taken is all that is in hand. -/
theorem hand_of_takes {x : Context} {inFlight : List (Id × Nat)} {input : List UInt8}
    {phase : Phase} {outcome : Outcome Unit} {queue jobs : List Work} (hs : s.Settling p t written)
    (hx : x.timeout = none) (hu : works { s with queue, jobs } = [⟨s.taken, x, .arrived⟩])
    (hj : ∀ w ∈ jobs, w.context.id ≠ none) (hi : ∀ q ∈ inFlight, x.id = some q.1) :
    Hand
      { s with
        connection := { s.connection with inFlight }
        input, phase, outcome, queue, jobs
        taken := s.taken + 1 } := by
  -- The only work is that on the new message, which has just arrived.
  have hmem (w : Work) (hw : w ∈ works { s with queue, jobs }) : w = ⟨s.taken, x, .arrived⟩ := by
    rwa [hu, List.mem_singleton] at hw
  have hnew : ⟨s.taken, x, .arrived⟩ ∈ works { s with queue, jobs } := by
    rw [hu]
    exact List.mem_singleton_self _
  constructor
  case alone => exact Nat.le_of_eq (congrArg List.length hu)
  case unfinished =>
    intro w hw
    rw [hmem w hw]
    rfl
  case callFree =>
    refine ⟨hs.callFree.1, fun w hw => ?_⟩
    rw [hmem w hw]
    exact trivial
  case timeless =>
    refine ⟨hs.timeless.1, fun w hw => ?_⟩
    rw [hmem w hw]
    exact hx
  case cancelled => exact hs.cancelled
  case inFlight => exact fun q hq => ⟨_, hnew, hi q hq, trivial⟩
  case jobs => exact hj

/-- Reading goes on behind the message, or it is the `exit` that ends it; the winding up begins in
neither case. -/
theorem standing_of_takes {m : RpcMessage} {x : Context} {inFlight : List (Id × Nat)}
    {input : List UInt8} {phase : Phase} {outcome : Outcome Unit} {queue jobs : List Work}
    (hs : s.Settling p t written) (hp : s.phase = .reading)
    (hu : works { s with queue, jobs } = [⟨s.taken, x, .arrived⟩])
    (hphase : m.isExit = false ∧ phase = .reading ∨
      m.isExit = true ∧ phase = .closing ∧ outcome = .ok () ∧ x.id = none) :
    Standing (t.take m)
      { s with
        connection := { s.connection with inFlight }
        input, phase, outcome, queue, jobs
        taken := s.taken + 1 } := by
  have hwriting := hs.writing_of_not_isWoundUp (by rw [hp]; rfl)
  -- Taking an exit ends the reading, but nothing is wound up yet.
  have hopen : phase.isWoundUp = false := by
    rcases hphase with ⟨-, rfl⟩ | ⟨-, rfl, -⟩ <;> rfl
  constructor
  case hungUp => exact hs.hungUp
  case writing => exact fun hno => absurd (hwriting.symm.trans hno) (by decide)
  case returned =>
    intro hr
    rw [show phase = .returned from hr] at hopen
    cases hopen
  case reading =>
    intro hr
    rcases hphase with ⟨hm, -⟩ | ⟨-, hc, -⟩
    · simp [Tally.take, hm, hs.reading hp]
    · cases hc.symm.trans hr
  case notices =>
    intro hr w hw
    rcases hphase with ⟨-, hc⟩ | ⟨-, -, -, hid⟩
    · exact absurd hc hr
    · have hw : w ∈ works { s with queue, jobs } := hw
      rw [hu, List.mem_singleton] at hw
      rw [hw]
      exact hid
  case stopped =>
    intro hr
    rcases hphase with ⟨-, hc⟩ | ⟨hm, -, ho, -⟩
    · exact absurd hc hr
    · rw [show Session.outcome _ = outcome from rfl, ho]
      exact .exits (by simp [Tally.take, hm])
  case woundUp =>
    intro hwound
    rw [show phase.isWoundUp = true from hwound] at hopen
    cases hopen

/-- A message that is to be handled is in hand from now on, alone. -/
theorem next_takes {m : RpcMessage} {x : Context} {inFlight : List (Id × Nat)} {input : List UInt8}
    {phase : Phase} {outcome : Outcome Unit} {queue jobs : List Work} (hs : s.Settling p t written)
    (hp : s.phase = .reading) (hw : s.works = []) (hx : m.context? none = some x)
    (hu : works { s with queue, jobs } = [⟨s.taken, x, .arrived⟩])
    (hj : ∀ w ∈ jobs, w.context.id ≠ none) (hi : ∀ q ∈ inFlight, x.id = some q.1)
    (hphase : m.isExit = false ∧ phase = .reading ∨
      m.isExit = true ∧ phase = .closing ∧ outcome = .ok () ∧ x.id = none) :
    Settling (p.take (.ok m)) (t.take m) written
      { s with
        connection := { s.connection with inFlight }
        input, phase, outcome, queue, jobs
        taken := s.taken + 1 } := by
  rw [Plain.take_of_context (hs.isOver_eq_false hp hw) hx, hs.eq_of_nil hw]
  exact { hs.hand_of_takes (RpcMessage.timeout_of_context hx) hu hj hi,
      hs.standing_of_takes hp hu hphase with
    completion_eq := by
      -- What was taken is all the work there is.
      refine (completion_of_singleton hu _).trans ?_
      rw [← hs.taken_eq]
      rfl
    written_eq := hs.written_eq
    taken_eq := congrArg (· + 1) hs.taken_eq }

/-- A message is taken. -/
theorem next_of_take {m : RpcMessage} {input : List UInt8} (hs : s.Settling p t written)
    (hp : s.phase = .reading) (hw : s.works = []) :
    Settling (p.take (.ok m)) (t.take m) written ({ s with input }.take m) := by
  have hnone : s.connection.inFlight = [] := hs.inFlight_eq_nil (by simp [hw])
  obtain ⟨hc, hq, hj⟩ : s.current = none ∧ s.queue = [] ∧ s.jobs = [] := by
    simpa [works] using hw
  cases m with
  | response r => exact hs.next_resolves hp hw
  | request m =>
    have hi : ∀ q ∈ (m.id, s.taken) :: s.connection.inFlight.filter (·.1 != m.id),
        (m.context none).id = some q.1 := by
      simp [hnone, RequestMessage.context]
    have hx : (RpcMessage.request m).context? none = some (m.context none) := rfl
    have hexit : (RpcMessage.request m).isExit = false := rfl
    have htime : m.context s.requestTimeout = m.context none := by rw [hs.timeless.1]
    by_cases hm : m.method = Method.shutdown
    · simp only [take, takeRequest, if_pos hm, htime]
      refine hs.next_takes hp hw hx ?_ hs.jobs hi (.inl ⟨hexit, hp⟩)
      simp [works, hc, hq, hj]
    · simp only [take, takeRequest, if_neg hm, htime]
      refine hs.next_takes hp hw hx ?_ ?_ hi (.inl ⟨hexit, hp⟩)
      · simp [works, hc, hq, hj]
      · simp [hj, RequestMessage.context]
  | notification m =>
    -- No request is in flight that the notification could give up.
    have hcancel (id : Id) : s.connection.cancel id = s.connection := by
      simp [Connection.cancel, hnone]
    have hi : ∀ q ∈ s.connection.inFlight, m.context.id = some q.1 := by simp [hnone]
    have hx : (RpcMessage.notification m).context? none = some m.context := rfl
    have hexit : (RpcMessage.notification m).isExit = (m.method == Method.exit) := rfl
    have hu : works { s with queue := s.queue ++ [⟨s.taken, m.context, .arrived⟩] } =
        [⟨s.taken, m.context, .arrived⟩] := by
      simp [works, hc, hq, hj]
    cases hcancelled : cancelTarget? m with
    | none | some id =>
      simp only [take, takeNotification, hcancelled, hcancel]
      by_cases hm : m.method = Method.exit
      · rw [if_pos hm]
        exact hs.next_takes hp hw hx hu hs.jobs hi (.inr ⟨by simp [hexit, hm], rfl, rfl, rfl⟩)
      · rw [if_neg hm]
        exact hs.next_takes hp hw hx hu hs.jobs hi (.inl ⟨by simp [hexit, hm], hp⟩)

/-- A body that holds no message is turned down, and the writer is there for the answer. -/
theorem next_of_rejects {answer : ResponseMessage} {input : List UInt8}
    (hs : s.Settling p t written) (hp : s.phase = .reading) (hw : s.works = []) :
    Settling (p.follow (s.connection.send .reader (.response answer)).1)
      (t.record (s.connection.send .reader (.response answer)).1)
      (written ++ (s.connection.send .reader (.response answer)).1.wrote?.toList)
      { s with input, connection := (s.connection.send .reader (.response answer)).2 } := by
  have hwriting := hs.writing_of_not_isWoundUp (by rw [hp]; rfl)
  -- Messages are written, so that the answer is queued.
  have hsend : s.connection.send .reader (.response answer) =
      (.queued .reader (.response answer),
        { s.connection with outgoing := s.connection.outgoing ++ [.response answer] }) :=
    if_pos hwriting
  rw [hsend, show Event.wrote? _ = none from rfl, Option.toList_none, List.append_nil]
  exact hs.next_rejects hp hw

/-- A step of the reader leads to where the plain order is. -/
theorem next_of_readerStep (hs : s.Settling p t written) (hpaced : s.IsPaced (.step .reader))
    (h : s.ReaderStep event u) :
    u.Settling (p.follow event) (t.record event) (written ++ event.wrote?.toList) := by
  cases h with
  | ends hp hfront =>
    have ho := Stopped.ends (hs.reading hp)
    rw [← hfront] at ho
    exact (hs.next_stops hp (hpaced.notices hp) ho).add_silent rfl rfl rfl
  | @breaks e hp hfront =>
    have ho : Stopped t.exited (.broken e) (.error e) := .breaks (hs.reading hp)
    rw [← hfront] at ho
    exact (hs.next_stops hp (hpaced.notices hp) ho).add_silent rfl rfl rfl
  | rejects hp hfront ha => exact hs.next_of_rejects hp (hpaced.works_eq_nil hp hfront)
  | takes hp hfront hm =>
    rw [show Event.wrote? _ = none from rfl, Option.toList_none, List.append_nil]
    exact hs.next_of_take hp (hpaced.works_eq_nil hp hfront)
  | closes hp =>
    have hr : s.phase ≠ .reading := by simp [hp]
    have hopen : s.phase.isWoundUp = false := by rw [hp]; rfl
    exact (hs.next_winds_calls hr _ hopen (by decide) rfl).add_silent rfl rfl rfl
  | cancels hp =>
    have hr : s.phase ≠ .reading := by simp [hp]
    -- What is left are notifications, so no request is in flight.
    have hcancelled : s.connection.cancelAll.cancelled = [] := by
      simp [Connection.cancelAll, hs.inFlight_eq_nil (hs.notices hr), hs.cancelled]
    have hnext : Settling p t written
        { s with phase := .releasing, connection := s.connection.cancelAll } :=
      hs.next_winds hr (by decide) rfl hcancelled rfl rfl rfl (absurd · (by rw [hp]; decide))
        (absurd · (by decide)) (absurd · (by decide))
    exact hnext.add_silent rfl rfl rfl
  | clears hp =>
    have hr : s.phase ≠ .reading := by simp [hp]
    have hopen : s.phase.isWoundUp = false := by rw [hp]; rfl
    exact (hs.next_winds_calls hr _ hopen (by decide) rfl).add_silent rfl rfl rfl
  | drains hp hq hc =>
    have hr : s.phase ≠ .reading := by simp [hp]
    have hdone : s.works = [] := by simp [works, hq, hc, hs.jobs_eq_nil hr]
    have hnext : Settling p t written { s with phase := .stopping } :=
      hs.next_winds hr (by decide) rfl hs.cancelled rfl rfl rfl (fun _ => rfl)
        (absurd · (by decide)) fun _ => hdone
    exact hnext.add_silent rfl rfl rfl
  | returns hp hw =>
    have hr : s.phase ≠ .reading := by simp [hp]
    have hnext : Settling p t written { s with phase := .returned } :=
      hs.next_winds hr (by decide) rfl hs.cancelled rfl rfl rfl (fun _ => rfl) (fun _ => hw)
        fun _ => hs.woundUp (by rw [hp]; rfl)
    exact hnext.add_silent rfl rfl rfl

/-- A paced move keeps the session where the plain order is. -/
theorem next {m : Move} (hs : s.Settling p t written) (hpaced : s.IsPaced m)
    (h : s.move m = some (event, u)) :
    u.Settling (p.follow event) (t.record event) (written ++ event.wrote?.toList) := by
  cases m with
  | receive bytes =>
    simp only [move, Option.some.injEq, Prod.mk.injEq] at h
    obtain ⟨rfl, rfl⟩ := h
    exact (hs.next_receive hpaced).add_silent rfl rfl rfl
  | endInput =>
    simp only [move, Option.some.injEq, Prod.mk.injEq] at h
    obtain ⟨rfl, rfl⟩ := h
    exact hs.next_endInput.add_silent rfl rfl rfl
  -- A paced client does not hang up.
  | hangUp => exact absurd hpaced id
  | step party =>
    cases party with
    | reader => exact hs.next_of_readerStep hpaced (readerStep_of_step h)
    | worker => exact hs.next_of_workerStep (workerStep_of_step h)
    | job number => exact hs.next_of_advances (hs.advances_of_jobStep (jobStep_of_step h))
    | writer => exact hs.next_of_writerStep (writerStep_of_step h)

end Settling

/-- A session that begins has nothing in hand. -/
theorem settling_session {server : Server} (hf : server.handler.IsCallFree)
    (ht : server.requestTimeout = none) :
    server.session.Settling { handler := server.handler } (Tally.of []) [] where
  completion_eq := rfl
  written_eq := rfl
  taken_eq := rfl
  alone := Nat.zero_le _
  unfinished _ hw := absurd hw List.not_mem_nil
  callFree := ⟨hf, fun _ hw => absurd hw List.not_mem_nil⟩
  timeless := ⟨ht, fun _ hw => absurd hw List.not_mem_nil⟩
  cancelled := rfl
  inFlight _ hq := absurd hq List.not_mem_nil
  hungUp := rfl
  writing hno := Bool.noConfusion hno
  returned hr := Phase.noConfusion hr
  reading _ := rfl
  notices hr := absurd rfl hr
  stopped hr := absurd rfl hr
  jobs _ hw := absurd hw List.not_mem_nil
  woundUp _ := rfl

/-- In a paced run the session is always where the plain order is. -/
theorem settling_of_pacedRun {server : Server} {events : List Event} {s : Session}
    (hf : server.handler.IsCallFree) (ht : server.requestTimeout = none)
    (h : server.session.PacedRun events s) :
    s.Settling (Plain.takeAll { handler := server.handler } (Event.readings events))
      (Tally.of events) (Event.written events) := by
  -- The plain order, what shows and what is written grow by the same event.
  induction h with
  | start => exact settling_session hf ht
  | next m _ hpaced hm ih =>
    have hnext := ih.next hpaced hm
    rwa [← Plain.takeAll_readings, ← Tally.of_append, ← Event.written_append] at hnext

end Session

end LanguageServer
