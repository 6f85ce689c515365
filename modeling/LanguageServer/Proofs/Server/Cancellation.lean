import LanguageServer.Proofs.Server.InFlight
import LanguageServer.Proofs.Server.Order
import Mathlib.Data.List.Nodup

/-!
# Cancellation reaches the request that it names

`Session.cancellation_of_run` says what becomes of requests that are given up.  The table of
requests in flight lists the requests that are yet to be answered.  A cancellation gives up the one
that it names, the end of reading gives up all of them, and nothing else gives up any.  A request
that is given up before its callback has started is refused, and its callback never starts.

The last part is an invariant of one message: `Session.Doomed` says that the work on it, if some is
left, is on its way to that answer, and `Session.exists_run_of_doomed` that it gets there.
-/

namespace LanguageServer

open Event (arrivals story conclusions answers)

/-- What happens to a message that is refused because it was given up. -/
def Event.Refuses (number : Nat) (event : Event) : Prop :=
  event ≠ .invoked number ∧
    ∀ c, conclusionOf? number event = some c → c = .returned (.failure .requestCancelled)

/-- Nothing is made of a request in a quiet event. -/
theorem Event.refuses_quiet (number : Nat) : Event.quiet.Refuses number :=
  ⟨by simp, by simp [conclusionOf?]⟩

/-- Nothing is made of a request when a message is sent. -/
theorem Event.refuses_send (c : Connection) (sender : Sender) (m : RpcMessage) (number : Nat) :
    (c.send sender m).1.Refuses number := by
  rcases Work.event_send_eq c sender m with he | he <;> rw [he] <;>
    exact ⟨by simp, by simp [conclusionOf?]⟩

/-- The answer to a request that was given up. -/
def RequestMessage.refusal (q : RequestMessage) : RpcMessage :=
  .response (.failure (some q.id) (.of .requestCancelled LspError.requestCancelled.message))

/-- Whether the requests in flight have been given up. -/
def Phase.hasGivenUp : Phase → Bool
  | .reading => false
  | .closing => false
  | .cancelling => false
  | .releasing => true
  | .draining => true
  | .stopping => true
  | .returned => true

namespace Connection

variable {c : Connection} {number : Nat}

/-- A cancellation gives up the request that has the identifier. -/
theorem mem_cancelled_cancel {id : Id} (hd : (c.inFlight.map (·.1)).Nodup) :
    number ∈ (c.cancel id).cancelled ↔ number ∈ c.cancelled ∨ (id, number) ∈ c.inFlight := by
  simp only [cancel]
  split
  · rename_i key n hf
    have hm := List.mem_of_find?_eq_some hf
    have hk : key = id := by simpa using List.find?_some hf
    subst hk
    rw [List.mem_cons, or_comm]
    refine or_congr_right ⟨fun h => h ▸ hm, fun h => ?_⟩
    -- No other entry has the identifier.
    exact congrArg Prod.snd (List.inj_on_of_nodup_map hd h hm rfl)
  · rename_i hf
    refine (or_iff_left fun h => ?_).symm
    simpa using List.find?_eq_none.1 hf _ h

/-- When all is given up, all requests in flight are. -/
theorem mem_cancelled_cancelAll :
    number ∈ c.cancelAll.cancelled ↔ number ∈ c.cancelled ∨ ∃ id, (id, number) ∈ c.inFlight := by
  simp only [cancelAll, List.mem_append, List.mem_map, Prod.exists, exists_eq_right]
  exact or_comm

end Connection

/-! ## Callbacks that have not started -/

namespace Work

variable {w w' : Work} {c c' : Connection} {event : Event}

/-- Whether the callback for a message has not been started yet. -/
def isEarly (w : Work) : Bool :=
  match w.stage with
  | .arrived => true
  | .chosen _ => true
  | _ => false

/-- Work that is to be answered is past its callback. -/
theorem isEarly_answerWith (answer : Id → ResponseMessage) :
    (w.answerWith answer).isEarly = false := by
  simp only [answerWith]
  split <;> rfl

/-- Work is early before its callback is started, and not after. -/
theorem early_of_advance (h : w.advance c = some (event, w', c')) (he : w'.isEarly = true) :
    w.isEarly = true ∧ ∀ number, event ≠ .invoked number := by
  cases stride_of_advance h with
  | turnsAway hs _ | chooses hs _ => exact ⟨by simp [isEarly, hs], nofun⟩
  | panics _ | concludes _ => simp [isEarly_answerWith] at he
  -- All other steps lead to stages that are not early.
  | _ => cases he

/-! ## Work on a request that was given up -/

/-- Work on a request that is given up before its callback has started, with the number of steps
that are left before the last one. -/
inductive Doomed (w : Work) : Nat → Prop
  | chosen {entry : Entry} : w.stage = .chosen entry → w.context.isRefused true = true → Doomed w 3
  | decided : w.stage = .decided (.failure .requestCancelled) → w.context.id.isSome = true →
    Doomed w 2
  | handled {answer : ResponseMessage} : w.stage = .handled answer → w.context.id.isSome = true →
    Doomed w 1
  | settled {answer : ResponseMessage} : w.stage = .settled answer → Doomed w 0

/-- Such work never waits, is refused, and gets closer to its end. -/
theorem Doomed.advance {left : Nat} (hd : w.Doomed left)
    (hc : c.isCancelled w.number = true) :
    ∃ event w' c', w.advance c = some (event, w', c') ∧ event.Refuses w.number ∧
      ((∃ fewer, fewer < left ∧ w'.Doomed fewer) ∨ w'.isOver = true) := by
  cases hd with
  | chosen hs hr =>
    -- A message that can be refused is a request, which is to be answered.
    have hid : w.context.id.isSome = true := by
      simp only [Context.isRefused, Context.isNotification, Bool.and_eq_true,
        Bool.not_eq_true', Option.isNone_eq_false_iff] at hr
      exact hr.1.1
    have ha : w.advance c = some (.quiet, w.enter (.decided (.failure .requestCancelled)), c) := by
      simp only [Work.advance, hs, hc, hr, if_true]
    exact ⟨_, _, _, ha, Event.refuses_quiet _, .inl ⟨2, by omega, .decided rfl hid⟩⟩
  | decided hs hid =>
    obtain ⟨c', ha⟩ : ∃ c', w.advance c =
        some (.returned w.number w.context (.failure .requestCancelled),
          w.answerWith fun id => (DispatchResult.failure .requestCancelled).response id
            w.context.method, c') :=
      ⟨_, by simp only [Work.advance, hs]; rfl⟩
    -- This is where the conclusion is drawn, and it is a refusal.
    refine ⟨_, _, _, ha, ⟨by simp, fun c hc => ?_⟩, .inl ⟨1, by omega, ?_⟩⟩
    · simpa [Event.conclusionOf?] using hc.symm
    · obtain ⟨id, hid⟩ := Option.isSome_iff_exists.1 hid
      simp only [answerWith, hid]
      exact .handled rfl (by simp [enter, hid])
  | @handled answer hs hid =>
    obtain ⟨id, hid⟩ := Option.isSome_iff_exists.1 hid
    have ha : w.advance c = some (.quiet, w.enter (.settled answer), c.settle id) := by
      simp only [Work.advance, hs, hid]
    exact ⟨_, _, _, ha, Event.refuses_quiet _, .inl ⟨0, by omega, .settled rfl⟩⟩
  | @settled answer hs =>
    have ha : w.advance c = some ((c.send (.answer w.number) (.response answer)).1,
        w.enter .finished, (c.send (.answer w.number) (.response answer)).2) := by
      simp only [Work.advance, hs]
    exact ⟨_, _, _, ha, Event.refuses_send _ _ _ _, .inr rfl⟩

end Work

namespace Session

variable {s t : Session} {event : Event} {events : List Event} {timeout : Option Nat} {m : Move}
  {number : Nat}

/-! ## What gives requests up -/

/-- Whether a move gives a request up: a notification is taken that names it while it is in flight,
or it is in flight at the end of reading. -/
def GivesUp (s : Session) (event : Event) (t : Session) (number : Nat) : Prop :=
  (∃ k q id, event = .taken k (.notification q) ∧ cancelTarget? q = some id ∧
    (id, number) ∈ s.connection.inFlight) ∨
  (s.phase = .cancelling ∧ t.phase = .releasing ∧ ∃ id, (id, number) ∈ s.connection.inFlight)

/-- Nothing is given up in an event that is no cancellation, as long as the session does not wind
up. -/
private theorem not_givesUp (hp : s.Progress t.phase)
    (hq : ∀ k q, event = .taken k (.notification q) → cancelTarget? q = none) :
    ¬ s.GivesUp event t number := by
  rintro (⟨k, q, id, he, hid, -⟩ | ⟨hs, ht, -⟩)
  · simp [hq k q he] at hid
  · rw [ht] at hp
    generalize hphase : Phase.releasing = phase at hp
    cases hp with
    | stays => simp [hs] at hphase
    | stops _ | closes _ | clears _ | drains _ _ _ | returns _ _ => cases hphase

/-- What a move does to the cancellations. -/
inductive Cancelling (s : Session) (event : Event) (t : Session) : Prop
  | nothing : t.connection.cancelled = s.connection.cancelled →
    (∀ number, ¬ s.GivesUp event t number) → Cancelling s event t
  | one {k : Nat} {q : NotificationMessage} {id : Id} : event = .taken k (.notification q) →
    cancelTarget? q = some id → s.phase = .reading → t.connection = s.connection.cancel id →
    Cancelling s event t
  | all : event = .quiet → s.phase = .cancelling → t.phase = .releasing →
    t.connection = s.connection.cancelAll → Cancelling s event t

/-- What a move does to tokens. -/
theorem Effect.cancelling (h : s.Effect m event t) : s.Cancelling event t := by
  cases h with
  | outward ho hc _ hp =>
    exact .nothing (by rw [hc]) fun _ =>
      not_givesUp hp fun k q he => by simp [he, Event.isOutward] at ho
  | winds hc _ hp | writes _ _ hc _ hp | ends _ _ hc _ hp =>
    exact .nothing (by rw [hc]) fun _ => not_givesUp hp fun _ _ he => by cases he
  | rejects hc _ hp =>
    refine .nothing ?_ fun _ => not_givesUp hp fun k q he => ?_
    · rw [hc]
      simp only [Connection.send]
      split <;> rfl
    · rcases Work.event_send_eq s.connection .reader (.response _) with hs | hs <;>
        rw [hs] at he <;> cases he
  | advances _ _ ha _ hp =>
    refine .nothing ?_ fun _ => not_givesUp hp fun k q he => ?_
    · cases Work.landing_of_advance ha with
      | stays _ _ hc => exact hc
      | lands _ _ hc => rw [hc]; rfl
    · -- Work on a message takes no other one.
      have hn := (Work.passage_of_advance ha).1.input_eq.1
      rw [he] at hn
      cases hn
  | givesUp hp hc _ ht => exact .all rfl hp ht hc
  | @takes message _ hp hc _ hprogress =>
    cases message with
    | request q | response q =>
      exact .nothing (by rw [hc]; rfl) fun _ => not_givesUp hprogress fun _ _ he => by cases he
    | notification q =>
      -- A notification gives up one request at most: the one that it names.
      cases htarget : cancelTarget? q with
      | none =>
        refine .nothing ?_ fun _ => not_givesUp hprogress fun k q' he => ?_
        · rw [hc]
          simp only [Connection.takeIn, htarget]
        · cases he
          exact htarget
      | some id =>
        refine .one rfl htarget hp ?_
        rw [hc]
        simp only [Connection.takeIn, htarget]

/-- What is given up in a move is what gives it up, and it stays given up. -/
theorem Cancelling.mem_iff (h : s.Cancelling event t) (hs : s.Flights) :
    number ∈ t.connection.cancelled ↔
      number ∈ s.connection.cancelled ∨ s.GivesUp event t number := by
  cases h with
  | nothing hc hn =>
    rw [hc]
    exact (or_iff_left (hn number)).symm
  | @one k q id he hid hp hc =>
    subst he
    rw [hc, Connection.mem_cancelled_cancel hs.nodup]
    refine or_congr_right ⟨fun hin => .inl ⟨k, q, id, rfl, hid, hin⟩, ?_⟩
    -- It names one identifier, and the session does not wind up at the same time.
    rintro (⟨k', q', id', he, hid', hin⟩ | ⟨hcancelling, -⟩)
    · cases he
      rw [hid, Option.some.injEq] at hid'
      exact hid' ▸ hin
    · simp [hp] at hcancelling
  | all he hp ht hc =>
    subst he
    rw [hc, Connection.mem_cancelled_cancelAll]
    refine or_congr_right ⟨fun hin => .inr ⟨hp, ht, hin⟩, ?_⟩
    rintro (⟨k, q, id, he, -⟩ | ⟨-, -, hin⟩)
    · cases he
    · exact hin

/-- What was given up stays so. -/
theorem Cancelling.mono (h : s.Cancelling event t) (hin : number ∈ s.connection.cancelled) :
    number ∈ t.connection.cancelled := by
  cases h with
  | nothing hc _ => exact hc ▸ hin
  -- A token that is cancelled already is not listed twice.
  | one _ _ _ hc =>
    rw [hc]
    simp only [Connection.cancel]
    split
    · exact List.mem_cons_of_mem _ hin
    · exact hin
  | all _ _ _ hc =>
    rw [hc]
    exact Connection.mem_cancelled_cancelAll.2 (.inl hin)

/-- Only the reader adds requests to those in flight, and only while it reads. -/
theorem Effect.mem_inFlight (h : s.Effect m event t) (hp : s.phase ≠ .reading) {p : Id × Nat}
    (hin : p ∈ t.connection.inFlight) : p ∈ s.connection.inFlight := by
  cases h with
  | outward _ hc _ _ | winds hc _ _ | givesUp _ hc _ _ | writes _ _ hc _ _ | ends _ _ hc _ _ =>
    rw [hc] at hin
    exact hin
  | rejects hc _ _ =>
    rw [hc] at hin
    simp only [Connection.send] at hin
    split at hin <;> exact hin
  | takes hr _ _ _ => exact absurd hr hp
  | advances _ _ ha _ _ =>
    cases Work.landing_of_advance ha with
    | stays _ hf _ => exact hf ▸ hin
    -- What lands takes its own entry out of the table.
    | lands _ _ hc =>
      rw [hc] at hin
      exact List.mem_of_mem_filter hin

/-- After the end of reading every request in flight is given up. -/
theorem cancelled_of_hasGivenUp {server : Server} (h : server.session.Run events s)
    (hids : Event.KeepsIds events) (hp : s.phase.hasGivenUp = true) :
    ∀ p ∈ s.connection.inFlight, p.2 ∈ s.connection.cancelled := by
  -- Step by step: the work stays doomed, and each event refuses it at most.
  induction h with
  | start => cases hp
  | @next events s t event m hrun hm ih =>
    have hs := flights_of_run hrun hids.of_append
    have he := effect_of_move (accounts_of_run hrun).nodup hm
    intro p hin
    rw [he.cancelling.mem_iff hs]
    by_cases hgiven : s.phase.hasGivenUp = true
    · have hr : s.phase ≠ .reading := fun hr => by simp [hr, Phase.hasGivenUp] at hgiven
      exact .inl (ih hids.of_append hgiven p (he.mem_inFlight hr hin))
    · -- This is the move that gives them up: no other leads to such a phase.
      have hnot (hprogress : s.Progress t.phase) : False := by
        generalize t.phase = phase at hprogress hp
        cases hprogress with
        | stays => exact hgiven hp
        | stops _ | closes _ => cases hp
        | clears hs | drains hs _ _ | returns hs _ => simp [hs, Phase.hasGivenUp] at hgiven
      cases he with
      | givesUp hs hc _ ht =>
        rw [hc] at hin
        exact .inr (.inr ⟨hs, ht, p.1, hin⟩)
      | outward _ _ _ hprogress | winds _ _ hprogress | rejects _ _ hprogress
      | takes _ _ _ hprogress | advances _ _ _ _ hprogress | writes _ _ _ _ hprogress
      | ends _ _ _ _ hprogress => exact absurd hprogress hnot

/-! ## What becomes of a request that was given up -/

/-- The callback for a message whose work is early has not been started. -/
theorem not_invoked_of_run {server : Server} (h : server.session.Run events s) :
    (∀ number, Event.invoked number ∈ events → number < s.taken) ∧
      ∀ w ∈ s.works, w.isEarly = true → Event.invoked w.number ∉ events := by
  induction h with
  | start => exact ⟨nofun, List.forall_mem_nil _⟩
  | @next events s t event m hrun hm ih =>
    obtain ⟨hlt, hearly⟩ := ih
    have ha := accounts_of_run hrun
    have htaken := (change_of_move hm).taken_eq.1
    rcases (effect_of_move ha.nodup hm).works_cases with ⟨w, w', rest, hb, hadvance, hw⟩ | ⟨hn, hw⟩
    · have hown : ∀ number, event = .invoked number → number = w.number := fun number he =>
        Work.number_of_actor hadvance (by rw [he]; rfl)
      have hwm : w ∈ s.works := hb.mem_iff.2 List.mem_cons_self
      have hnumber := (Work.passage_of_advance hadvance).1.number_eq.1
      -- Only the work that takes the step can have been invoked in it.
      refine ⟨fun number hin => ?_, fun v hv he hin => ?_⟩
      · rcases List.mem_append.1 hin with hin | hin
        · exact Nat.lt_of_lt_of_le (hlt number hin) (by omega)
        · rw [hown number (List.mem_singleton.1 hin).symm]
          exact Nat.lt_of_lt_of_le (ha.lt_taken_of_mem_numbers (mem_numbers.2 ⟨w, hwm, rfl⟩))
            (by omega)
      · rcases List.mem_append.1 (hw.mem_iff.1 hv) with hleft | hrest
        · obtain ⟨-, rfl⟩ := Work.mem_left.1 hleft
          obtain ⟨hwe, hne⟩ := Work.early_of_advance hadvance he
          rcases List.mem_append.1 hin with hin | hin
          · exact hearly w hwm hwe (hnumber ▸ hin)
          · exact hne _ (List.mem_singleton.1 hin).symm
        · rcases List.mem_append.1 hin with hin | hin
          · exact hearly v (hb.mem_iff.2 (List.mem_cons_of_mem _ hrest)) he hin
          · exact ne_of_mem_rest ha.nodup hb hrest (hown _ (List.mem_singleton.1 hin).symm)
    · have hold {number : Nat} (hin : Event.invoked number ∈ events ++ [event]) :
          Event.invoked number ∈ events := by
        rcases List.mem_append.1 hin with hin | hin
        · exact hin
        · rw [← List.mem_singleton.1 hin] at hn
          cases hn
      refine ⟨fun number hin => Nat.lt_of_lt_of_le (hlt number (hold hin)) (by omega), ?_⟩
      intro v hv he hin
      rcases hw v hv with hv | hv
      · exact hearly v hv he (hold hin)
      · exact absurd (hlt _ (hold hin)) (by omega)

/-- A request was given up before its callback has started. -/
structure Doomed (s : Session) (number : Nat) : Prop where
  cancelled : number ∈ s.connection.cancelled
  lt_taken : number < s.taken
  works : ∀ w ∈ s.works, w.number = number → ∃ left, w.Doomed left

/-- A request that was given up is refused, if anything happens to it. -/
theorem Doomed.next {server : Server} (hrun : server.session.Run events s)
    (hdoomed : s.Doomed number) (hm : s.move m = some (event, t)) :
    t.Doomed number ∧ event.Refuses number := by
  have ha := accounts_of_run hrun
  have he := effect_of_move ha.nodup hm
  have htaken := (change_of_move hm).taken_eq.1
  have hcancelled := he.cancelling.mono hdoomed.cancelled
  have hlt : number < t.taken := Nat.lt_of_lt_of_le hdoomed.lt_taken (by omega)
  rcases he.works_cases with ⟨w, w', rest, hb, hadvance, hw⟩ | ⟨hn, hw⟩
  · have hnumber := (Work.passage_of_advance hadvance).1.number_eq.1
    have hrest : ∀ v ∈ rest, v.number = number → ∃ left, v.Doomed left := fun v hv =>
      hdoomed.works v (hb.mem_iff.2 (List.mem_cons_of_mem _ hv))
    by_cases hwn : w.number = number
    · -- It is the work on this request that takes the step.
      subst hwn
      obtain ⟨left, hleft⟩ := hdoomed.works w (hb.mem_iff.2 List.mem_cons_self) rfl
      obtain ⟨event', v', c', hadvance', hrefuses, hnext⟩ :=
        hleft.advance (List.elem_eq_true_of_mem hdoomed.cancelled)
      rw [hadvance, Option.some.injEq, Prod.mk.injEq, Prod.mk.injEq] at hadvance'
      obtain ⟨rfl, rfl, -⟩ := hadvance'
      refine ⟨⟨hcancelled, hlt, fun v hv hvn => ?_⟩, hrefuses⟩
      rcases List.mem_append.1 (hw.mem_iff.1 hv) with hv | hv
      · obtain ⟨ho, rfl⟩ := Work.mem_left.1 hv
        rcases hnext with ⟨fewer, -, hfewer⟩ | hover
        · exact ⟨fewer, hfewer⟩
        · simp [ho] at hover
      · exact hrest v hv hvn
    · refine ⟨⟨hcancelled, hlt, fun v hv hvn => ?_⟩, fun he => ?_, fun c hc => ?_⟩
      · rcases List.mem_append.1 (hw.mem_iff.1 hv) with hv | hv
        · obtain ⟨-, rfl⟩ := Work.mem_left.1 hv
          exact absurd (hnumber ▸ hvn) hwn
        · exact hrest v hv hvn
      · exact hwn (Work.number_of_actor hadvance (by rw [he]; rfl)).symm
      · exact absurd (Work.number_of_actor hadvance (Event.actor?_of_conclusionOf? hc)).symm hwn
  · refine ⟨⟨hcancelled, hlt, fun v hv hvn => ?_⟩, fun he => ?_, fun c hc => ?_⟩
    · rcases hw v hv with hv | hv
      · exact hdoomed.works v hv hvn
      · exact absurd hdoomed.lt_taken (by omega)
    · rw [he] at hn
      cases hn
    · rw [Event.actor?_of_conclusionOf? hc] at hn
      cases hn

/-- A request that is doomed stays so, and nothing else is ever made of it. -/
theorem Doomed.of_run {server : Server} {after : List Event} (hrun : server.session.Run events s)
    (hdoomed : s.Doomed number) (h : s.Run after t) :
    t.Doomed number ∧ ∀ e ∈ after, e.Refuses number := by
  induction h with
  | start => exact ⟨hdoomed, List.forall_mem_nil _⟩
  | @next after t u event m hafter hm ih =>
    obtain ⟨ht, hrefuses⟩ := ih
    obtain ⟨hu, he⟩ := ht.next (hrun.trans hafter) hm
    refine ⟨hu, fun e hin => ?_⟩
    rcases List.mem_append.1 hin with hin | hin
    · exact hrefuses e hin
    · rwa [List.mem_singleton.1 hin]

/-- A job is found under its number, which no other job has. -/
theorem find?_jobs (hd : s.numbers.Nodup) {w : Work} (hw : w ∈ s.jobs) :
    s.jobs.find? (·.number == w.number) = some w := by
  have hnd : (s.jobs.map (·.number)).Nodup := by
    rw [numbers, works, List.map_append] at hd
    exact (List.nodup_append.1 hd).2.1
  cases hf : s.jobs.find? (·.number == w.number) with
  | none => exact absurd (List.find?_eq_none.1 hf w hw) (by simp)
  | some v =>
    have hv : v.number = w.number := by simpa using List.find?_some hf
    rw [List.inj_on_of_nodup_map hnd (List.mem_of_find?_eq_some hf) hw hv]

/-- Work that does not wait in the queue takes its step in a move of the session. -/
theorem exists_move_of_advance (hs : s.InTurn timeout events) (hd : s.numbers.Nodup) {w w' : Work}
    {c : Connection} (hw : w ∈ s.works) (hstage : w.stage ≠ .arrived)
    (ha : w.advance s.connection = some (event, w', c)) :
    ∃ m t rest, s.move m = some (event, t) ∧ s.works.Perm (w :: rest) ∧
      t.works.Perm (w'.left ++ rest) := by
  simp only [works, List.mem_append, Option.mem_toList] at hw
  rcases hw with (hcurrent | hqueue) | hjob
  · obtain ⟨hb, ht⟩ := perm_works_current hcurrent w' c
    exact ⟨.step .worker, _, _, by simp only [move, step, stepWorker, hcurrent, ha]; rfl, hb, ht⟩
  · exact absurd (hs.queue w hqueue).2 hstage
  · have hn := (Work.passage_of_advance ha).1.number_eq.1
    obtain ⟨rest, hb, ht⟩ := perm_works_jobs hjob hn hd c
    exact ⟨.step (.job w.number), _, rest,
      by simp only [move, step, stepJob, find?_jobs hd hjob, ha]; rfl, hb, ht⟩

/-- The work on a request that was given up comes to its end by its own steps. -/
private theorem exists_run_of_work {server : Server} {w : Work} {left : Nat}
    (hrun : server.session.Run events s) (hdoomed : s.Doomed w.number) (hw : w ∈ s.works)
    (hleft : w.Doomed left) :
    ∃ after t, s.Run after t ∧ w.number ∉ t.numbers := by
  induction left using Nat.strongRecOn generalizing events s w with
  | ind left ih =>
    have ha := accounts_of_run hrun
    have hstage : w.stage ≠ .arrived := by
      cases hleft with
      | chosen h _ | decided h _ | handled h _ | settled h => rw [h]; exact nofun
    obtain ⟨event, w', c, hadvance, -, hnext⟩ :=
      hleft.advance (List.elem_eq_true_of_mem hdoomed.cancelled)
    -- The work has a step to take, and the session has a move that takes it.
    obtain ⟨m, t, rest, hm, hb, ht⟩ :=
      exists_move_of_advance (inTurn_of_run hrun) ha.nodup hw hstage hadvance
    have hnumber := (Work.passage_of_advance hadvance).1.number_eq.1
    cases ho : w'.isOver with
    | true =>
      refine ⟨[event], t, .single m hm, fun hin => ?_⟩
      obtain ⟨v, hv, hn⟩ := mem_numbers.1 hin
      have hv : v ∈ rest := by simpa [Work.left, ho] using ht.mem_iff.1 hv
      exact ne_of_mem_rest ha.nodup hb hv hn
    | false =>
      rcases hnext with ⟨fewer, hfewer, hw'⟩ | hover
      · have hin : w' ∈ t.works :=
          ht.mem_iff.2 (List.mem_append_left _ (Work.mem_left.2 ⟨ho, rfl⟩))
        have hdoomed' := (hdoomed.next hrun hm).1
        rw [← hnumber] at hdoomed' ⊢
        obtain ⟨after, u, hafter, hu⟩ := ih fewer hfewer (hrun.next m hm) hdoomed' hin hw'
        exact ⟨[event] ++ after, u, .trans (.single m hm) hafter, hu⟩
      · simp [ho] at hover

/-- The work on a request that was given up is never held up. -/
theorem exists_run_of_doomed {server : Server} (hrun : server.session.Run events s)
    (hdoomed : s.Doomed number) : ∃ after t, s.Run after t ∧ number ∉ t.numbers := by
  by_cases hn : number ∈ s.numbers
  · obtain ⟨w, hw, rfl⟩ := mem_numbers.1 hn
    obtain ⟨left, hleft⟩ := hdoomed.works w hw rfl
    exact exists_run_of_work hrun hdoomed hw hleft
  · exact ⟨[], s, .start, hn⟩

/-- A request that is given up when its callback is about to start: its handler passes it and has a
callback for it, which is not started. -/
theorem doomed_of_chosen {server : Server} (hrun : server.session.Run events s)
    {q : RequestMessage} (hq : Event.taken number (.request q) ∈ events)
    (hexit : q.method ≠ Method.exit) (hc : number ∈ s.connection.cancelled) {w : Work}
    (hw : w ∈ s.works) (hn : w.number = number) {entry : Entry} (hs : w.stage = .chosen entry) :
    s.Doomed number ∧ Event.invoked number ∉ events ∧ conclusions number events = [] := by
  have ha := accounts_of_run hrun
  subst hn
  obtain ⟨m, hm, hx⟩ := ha.known w hw
  -- The work is on this very request.
  rw [ha.arrival_unique hm (mem_arrivals.2 hq), RpcMessage.context?, Option.some.injEq] at hx
  have hrefused : w.context.isRefused true = true := by
    rw [← hx]
    simp [Context.isRefused, Context.isNotification, Context.isCancelled, RequestMessage.context,
      hexit]
  refine ⟨⟨hc, ha.lt_taken_of_mem_numbers (mem_numbers.2 ⟨w, hw, rfl⟩), fun v hv hvn => ?_⟩,
    (not_invoked_of_run hrun).2 w hw (by simp [Work.isEarly, hs]), ?_⟩
  · rw [List.inj_on_of_nodup_map ha.nodup hv hw hvn]
    exact ⟨3, .chosen hs hrefused⟩
  · have ht := ha.tells w hw
    simp only [Work.Tells, hs] at ht
    rw [Event.conclusions_eq, ht]
    rfl

/-- Events that refuse a request add no conclusion but the refusal. -/
theorem conclusions_of_refuses {before after : List Event} (hnone : conclusions number before = [])
    (hrefuses : ∀ e ∈ after, e.Refuses number) :
    ∀ c ∈ conclusions number (before ++ after), c = .returned (.failure .requestCancelled) := by
  intro c hin
  rw [conclusions, List.filterMap_append] at hin
  rcases List.mem_append.1 hin with hin | hin
  · rw [conclusions] at hnone
    simp [hnone] at hin
  · obtain ⟨e, he, hc⟩ := List.mem_filterMap.1 hin
    exact (hrefuses e he).2 c hc

/-- A request whose handling comes to nothing but the refusal is answered with that, or not yet. -/
theorem answers_of_refused {server : Server} (h : server.session.Run events s) {q : RequestMessage}
    (hq : Event.taken number (.request q) ∈ events)
    (hall : ∀ c ∈ conclusions number events, c = .returned (.failure .requestCancelled)) :
    (answers number events).Sublist [q.refusal] ∧
      (number ∉ s.numbers → s.connection.writing = true → answers number events = [q.refusal]) := by
  obtain ⟨hle, hsub, hdone⟩ := answers_of_request h hq
  refine ⟨?_, fun hgone hwriting => ?_⟩
  · -- There is at most one conclusion, so at most one refusal.
    cases hlist : conclusions number events with
    | nil =>
      rw [hlist] at hsub
      exact hsub.trans (List.nil_sublist _)
    | cons c rest =>
      rw [hlist] at hle hsub hall
      obtain rfl : rest = [] := List.length_eq_zero_iff.1 (by simpa using hle)
      rw [hall c List.mem_cons_self] at hsub
      exact hsub
  · obtain ⟨hone, hanswers⟩ := hdone hgone
    obtain ⟨c, hlist⟩ := List.length_eq_one_iff.1 hone
    rw [hlist] at hall
    rw [hanswers hwriting, hlist, hall c (List.mem_singleton_self c)]
    rfl

/-- What becomes of requests in flight and of those that are given up, in any run in which the
client uses no identifier again before its request is answered.

* The table of requests in flight has one entry for every request that was taken and is still to be
  answered, under its identifier, and no others.
* That is from its arrival until its handling has come to a conclusion, at least, and until it is
  answered, at most.
* A cancellation gives up the request in flight that it names, the end of reading gives up all that
  are in flight, and nothing else gives up any.
* A request, other than `exit`, that passes and has a callback, and is given up before that is
  started, is answered with `requestCancelled` and its callback never starts; and nothing can keep
  it from being answered.
* From the end of reading on all requests in flight are given up. -/
theorem cancellation_of_run {server : Server} (h : server.session.Run events s)
    (hids : Event.KeepsIds events) :
    ((s.connection.inFlight.map (·.1)).Nodup ∧
      ∀ id number, (id, number) ∈ s.connection.inFlight ↔
        ∃ q, Event.taken number (.request q) ∈ events ∧ q.id = id ∧ s.Owes number) ∧
    (∀ number q, Event.taken number (.request q) ∈ events →
      (conclusions number events = [] → s.Owes number) ∧
      (s.Owes number → answers number events = [])) ∧
    (∀ m event t, s.move m = some (event, t) →
      ∀ number, number ∈ t.connection.cancelled ↔
        number ∈ s.connection.cancelled ∨ s.GivesUp event t number) ∧
    (∀ number q, Event.taken number (.request q) ∈ events → q.method ≠ Method.exit →
      number ∈ s.connection.cancelled →
      ∀ w ∈ s.works, w.number = number → ∀ entry, w.stage = .chosen entry →
      ∀ after t, s.Run after t →
        Event.invoked number ∉ events ++ after ∧
        (answers number (events ++ after)).Sublist [q.refusal] ∧
        (number ∉ t.numbers → t.connection.writing = true →
          answers number (events ++ after) = [q.refusal]) ∧
        ∃ more u, t.Run more u ∧ number ∉ u.numbers) ∧
    (s.phase.hasGivenUp = true →
      ∀ id number, (id, number) ∈ s.connection.inFlight → number ∈ s.connection.cancelled) := by
  have ha := accounts_of_run h
  have hs := flights_of_run h hids
  refine ⟨⟨hs.nodup, fun id number => ?table⟩, fun number q hq => ?span,
    fun m event t hm number => ?givesUp,
    fun number q hq hexit hc w hw hn entry hstage after t hafter => ?refused,
    fun hp id number hin => ?windsUp⟩
  case table => simpa only [mem_arrivals] using hs.mem_iff ha
  case span => exact ⟨ha.owes (mem_arrivals.2 hq), ha.answers_eq_nil⟩
  case givesUp => exact (effect_of_move ha.nodup hm).cancelling.mem_iff hs
  case refused =>
    obtain ⟨hdoomed, hbefore, hnone⟩ := doomed_of_chosen h hq hexit hc hw hn hstage
    obtain ⟨ht, hrefuses⟩ := hdoomed.of_run h hafter
    have hrun := h.trans hafter
    -- Whatever conclusion there is, it is the one of a request that was given up.
    obtain ⟨hsub, hdone⟩ := answers_of_refused hrun (List.mem_append_left _ hq)
      (conclusions_of_refuses hnone hrefuses)
    refine ⟨fun hin => ?_, hsub, hdone, exists_run_of_doomed hrun ht⟩
    rcases List.mem_append.1 hin with hin | hin
    · exact hbefore hin
    · exact (hrefuses _ hin).1 rfl
  case windsUp => exact cancelled_of_hasGivenUp h hids hp (id, number) hin

/-- A request is given up when its callback is about to start. -/
def exampleCancelled : List Event × Session :=
  let bytes := [
    "\x7b\"jsonrpc\":\"2.0\",\"id\":7,\"method\":\"boom\"\x7d",
    "\x7b\"jsonrpc\":\"2.0\",\"method\":\"$/cancelRequest\",\"params\":\x7b\"id\":7\x7d\x7d"].flatMap
    fun body => (Frame.ofContent body).bytes
  exampleServer.session.play
    [.receive bytes, .step .reader, .step (.job 0), .step .reader]

/-- It is a run of the server. -/
theorem run_exampleCancelled :
    exampleServer.session.Run exampleCancelled.1 exampleCancelled.2 :=
  run_play exampleServer.session _

/-- Its work goes on. -/
def exampleRefused : List Event × Session :=
  exampleCancelled.2.play (List.replicate 4 (.step (.job 0)))

/-- It goes on from there. -/
theorem run_exampleRefused : exampleCancelled.2.Run exampleRefused.1 exampleRefused.2 :=
  run_play exampleCancelled.2 _

/-- The request is refused, and nothing is left of it. -/
theorem cancellation_of_exampleCancelled :
    ∃ q, Event.taken 0 (.request q) ∈ exampleCancelled.1 ∧
      (q.id, 0) ∈ exampleCancelled.2.connection.inFlight ∧
      answers 0 (exampleCancelled.1 ++ exampleRefused.1) = [q.refusal] := by
  obtain ⟨hids, hpos, hexit, hcancelled, hchosen, hgone, hwriting⟩ :
      (exampleCancelled.1.filterMap Event.requestId?).Nodup ∧
      0 < ((arrivals exampleCancelled.1).filter fun p => p.1 == 0 && p.2.isRequest).length ∧
      (arrivals exampleCancelled.1).all (fun p => p.2.method? != some Method.exit) = true ∧
      0 ∈ exampleCancelled.2.connection.cancelled ∧
      0 < (exampleCancelled.2.works.filter fun w =>
        w.number == 0 && match w.stage with | .chosen _ => true | _ => false).length ∧
      0 ∉ exampleRefused.2.numbers ∧ exampleRefused.2.connection.writing = true := by
    decide +kernel
  -- Of what was evaluated, recover the request and the work that had been chosen for it.
  obtain ⟨⟨number, m⟩, hp⟩ := List.exists_mem_of_length_pos hpos
  obtain ⟨w, hw⟩ := List.exists_mem_of_length_pos hchosen
  simp only [List.mem_filter, Bool.and_eq_true, beq_iff_eq] at hp hw
  obtain ⟨hm, rfl, hr⟩ := hp
  obtain ⟨hw, hn, hs⟩ := hw
  cases m with
  | notification _ | response _ => simp [RpcMessage.isRequest] at hr
  | request q =>
    have hq := mem_arrivals.1 hm
    have hne : q.method ≠ Method.exit := by
      simpa [RpcMessage.method?] using List.all_eq_true.1 hexit _ hm
    obtain ⟨⟨-, htable⟩, -, -, hrefuses, -⟩ :=
      cancellation_of_run run_exampleCancelled (.of_nodup hids)
    cases hstage : w.stage with
    | chosen entry =>
      obtain ⟨-, -, hanswers, -⟩ := hrefuses 0 q hq hne hcancelled w hw hn entry hstage
        _ _ run_exampleRefused
      refine ⟨q, hq, (htable _ _).2 ⟨q, hq, rfl, w, hw, hn, ?_⟩, hanswers hgone hwriting⟩
      simp [Work.isOwed, hstage]
    | _ => simp [hstage] at hs

end Session

end LanguageServer
