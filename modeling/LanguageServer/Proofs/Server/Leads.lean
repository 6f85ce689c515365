import LanguageServer.Proofs.Server.Cancellation
import LanguageServer.Proofs.Server.Delivery
import LanguageServer.Proofs.Server.Response

/-!
# What an act of a callback leads to

`Session.move_cases_of_mem` follows the work on one message through a session: a move is a step of
that work, or it leaves the work alone and nothing happens on its account.  From this comes what
every order of the moves has in common.

* `Session.leads_of_notify`: a notification is sent next, once.
* `Session.leads_of_call`: the request of a call is sent next, if anything is, and the callback goes
  on with what a response to that request says, or with an error about the connection.
* `Session.leads_of_answer`: when that response has come, it goes on with what the response says.
* `Session.leads_of_done`: what the callback ends with is the conclusion, and there is no other.

All of it is said with `Session.Leads`: something holds until something else has come about.
-/

namespace LanguageServer

open Event (arrivals conclusions answers story sentBy sentBy?)

namespace Event

/-- One more event adds at most one message that a callback has sent. -/
theorem sentBy_append (number : Nat) (events : List Event) (event : Event) :
    sentBy number (events ++ [event]) = sentBy number events ++ (sentBy? number event).toList := by
  cases h : sentBy? number event <;> simp [sentBy, h]

/-- Conclusions of events are those of the earlier ones and those of the later ones. -/
theorem conclusions_append (number : Nat) (events more : List Event) :
    conclusions number (events ++ more) = conclusions number events ++ conclusions number more :=
  List.filterMap_append

/-- A callback sends nothing in an event that happens on another account. -/
theorem sentBy_append_of_actor {number : Nat} {event : Event} (h : event.actor? ≠ some number)
    (events : List Event) : sentBy number (events ++ [event]) = sentBy number events := by
  cases hs : sentBy? number event with
  | none => rw [sentBy_append, hs, Option.toList_none, List.append_nil]
  | some m => exact absurd (actor?_of_sentBy? hs) h

/-- Nothing comes to a conclusion in an event that happens on another account. -/
theorem conclusions_append_of_actor {number : Nat} {event : Event}
    (h : event.actor? ≠ some number) (events : List Event) :
    conclusions number (events ++ [event]) = conclusions number events := by
  cases hc : conclusionOf? number event with
  | none => simp [conclusions, hc]
  | some c => exact absurd (actor?_of_conclusionOf? hc) h

end Event

/-- A response makes no difference to a call that does not wait. -/
theorem Calls.answer?_complete {c : Calls} {n : Nat} (h : c.isWaiting n = false)
    (r : ResponseMessage) : (c.complete r).answer? n = c.answer? n := by
  rcases c.complete_cases r with ⟨he, -⟩ | ⟨p, hp, -, he⟩ <;> rw [he]
  have hne : p.2 ≠ n := fun hn => by
    rw [Calls.isWaiting_iff.2 ⟨p, hp, hn⟩] at h
    cases h
  simp [answer?, hne]

/-- Whether a call has tried to send its request. -/
def CallStage.hasSent : CallStage → Bool
  | .failed | .waiting => true
  | .numbered | .enlisted | .refused | .unsent => false

namespace Session

variable {s t : Session} {m : Move} {event : Event} {events : List Event} {server : Server}
  {w : Work}

/-- A move is a step of the work on a message, or that work stays as it is and nothing happens on
its account. -/
theorem move_cases_of_mem (hd : s.numbers.Nodup) (hm : s.move m = some (event, t))
    (hw : w ∈ s.works) :
    w ∈ t.works ∧ event.actor? ≠ some w.number ∨
    ∃ w', w.advance s.connection = some (event, w', t.connection) ∧
      (w'.isOver = false → w' ∈ t.works) := by
  have hother : event.actor? = none → event.actor? ≠ some w.number := fun hn => by simp [hn]
  cases effect_of_move hd hm with
  | outward ho _ he _ =>
    refine .inl ⟨he ▸ hw, hother ?_⟩
    cases event with
    | received _ | stopped _ | quiet => rfl
    | _ => simp [Event.isOutward] at ho
  | winds _ he _ | givesUp _ _ he _ | writes _ _ _ he _ | ends _ _ _ he _ =>
    exact .inl ⟨he ▸ hw, hother rfl⟩
  | rejects _ he _ =>
    refine .inl ⟨he ▸ hw, hother ?_⟩
    rcases Work.event_send_eq s.connection .reader _ with hs | hs <;> rw [hs] <;> rfl
  | takes _ _ hp _ => exact .inl ⟨hp.mem_iff.2 (List.mem_append_right _ hw), hother rfl⟩
  | advances _ hb ha hp _ =>
    rcases List.mem_cons.1 (hb.mem_iff.1 hw) with rfl | hrest
    · refine .inr ⟨_, ha, fun ho => hp.mem_iff.2 (List.mem_append_left _ ?_)⟩
      exact Work.mem_left.2 ⟨ho, rfl⟩
    · -- The work on another message takes the step.
      refine .inl ⟨hp.mem_iff.2 (List.mem_append_right _ hrest), fun hn => ?_⟩
      exact ne_of_mem_rest hd hb hrest (Work.number_of_actor ha hn)

/-! ## Until something comes about -/

/-- In every run something holds, of the events since and of the session that they have led to,
until something else has come about. -/
def Leads (s : Session) (pending done : List Event → Session → Prop) : Prop :=
  ∀ later t, s.Run later t → pending later t ∨
    ∃ first rest u, later = first ++ rest ∧ s.Run first u ∧ done first u ∧ u.Run rest t

/-- It is enough to look at single moves, as long as nothing has come about. -/
theorem leads_of_move {pending done : List Event → Session → Prop} (hstart : pending [] s)
    (hmove : ∀ later t m event u, s.Run later t → pending later t →
      t.move m = some (event, u) → pending (later ++ [event]) u ∨ done (later ++ [event]) u) :
    s.Leads pending done := by
  intro later t h
  -- By induction on the run; once something has come about, the rest of the run is left open.
  induction h with
  | start => exact .inl hstart
  | @next later t u event m hrun hm ih =>
    rcases ih with hp | ⟨first, rest, v, rfl, hfirst, hdone, hrest⟩
    · rcases hmove later t m event u hrun hp hm with hp | hdone
      · exact .inl hp
      · exact .inr ⟨later ++ [event], [], u, by simp, .next m hrun hm, hdone, .start⟩
    · exact .inr ⟨first, rest ++ [event], v, by simp, hfirst, hdone, .next m hrest hm⟩

/-- What is known of the two may be said in other words. -/
theorem Leads.mono {pending done pending' done' : List Event → Session → Prop}
    (h : s.Leads pending done) (hpending : ∀ later t, pending later t → pending' later t)
    (hdone : ∀ first u, done first u → done' first u) : s.Leads pending' done' := by
  intro later t hrun
  rcases h later t hrun with hp | ⟨first, rest, u, rfl, hfirst, hd, hrest⟩
  · exact .inl (hpending _ _ hp)
  · exact .inr ⟨first, rest, u, rfl, hfirst, hdone _ _ hd, hrest⟩

/-! ## Notifications -/

/-- A message of a callback was queued, or it was given up because nothing is written any more; the
callback gets to know which. -/
def Delivered (number : Nat) (message : RpcMessage) (events : List Event) (outcome : Outcome Unit) :
    Prop :=
  sentBy number events = [message] ∧
    (outcome = .ok () ∧ .queued (.callback number) message ∈ events ∨
      outcome = .error Connection.writerGone ∧ .dropped (.callback number) message ∈ events)

/-- A callback that notifies the client sends nothing before the notification. -/
theorem leads_of_notify (h : server.session.Run events s) (hw : w ∈ s.works) {method : String}
    {params : LspAny} {next : Outcome Unit → Activity}
    (hs : w.stage = .acting (.notify method params next)) :
    s.Leads (fun later t => w ∈ t.works ∧ sentBy w.number later = [])
      fun first u => ∃ outcome, w.enter (.acting (next outcome)) ∈ u.works ∧
        Delivered w.number (.ofNotification method params.asParams) first outcome := by
  refine leads_of_move ⟨hw, rfl⟩ ?_
  intro later t m event u hrun hp hm
  obtain ⟨hin, hsent⟩ := hp
  rcases move_cases_of_mem (accounts_of_run (h.trans hrun)).nodup hm hin with
    ⟨hin, ha⟩ | ⟨w', ha, hleft⟩
  · exact .inl ⟨hin, by rw [Event.sentBy_append_of_actor ha, hsent]⟩
  · simp only [Work.advance, hs, Work.act, Option.some.injEq, Prod.mk.injEq] at ha
    obtain ⟨rfl, rfl, -⟩ := ha
    refine .inr ⟨_, hleft rfl, ?_⟩
    rw [Delivered, Event.sentBy_append, hsent]
    -- Whether it is queued depends on the writer alone.
    cases hc : t.connection.writing <;> simp [Connection.send, hc, sentBy?]

/-! ## Calls -/

/-- A step of the work on a message hands no response over. -/
theorem answers_of_advance {w' : Work} {c c' : Connection}
    (h : w.advance c = some (event, w', c')) : c'.calls.answers = c.calls.answers := by
  cases Work.calling_of_advance h with
  | aside _ _ hc => rw [hc]
  | begins _ => rfl
  | goesOn _ hstep | returns _ hstep => exact (CallStage.passage_of_step hstep).table_eq.2.2

/-- A response is handed over when it is taken, and then only. -/
theorem Change.answers_cases (h : s.Change event t) :
    (∀ number r, event ≠ .taken number (.response r)) ∧
      t.connection.calls.answers = s.connection.calls.answers ∨
    ∃ r, event = .taken s.taken (.response r) ∧
      t.connection.calls = s.connection.calls.complete r ∧ t.works = s.works := by
  cases h with
  | @aside event _ _ _ _ _ _ _ ha _ hw _ _ =>
    refine .inl ⟨fun number r he => ?_, ?_⟩
    · rw [he] at ha
      cases ha
    · cases hw with
      | nothing hc _ => rw [hc]
      | closes _ | cancels _ | clears _ => rfl
  | resolves _ => exact .inr ⟨_, rfl, rfl, rfl⟩
  | queues _ _ _ hc _ hx _ _ | starts _ _ hc hx _ =>
    -- A response goes to no callback.
    refine .inl ⟨fun number r he => ?_, by rw [hc]⟩
    rw [(Event.taken.inj he).2] at hx
    cases hx
  | picksUp _ _ => exact .inl ⟨nofun, rfl⟩
  | workerSteps _ ha | jobSteps _ ha =>
    refine .inl ⟨fun number r he => ?_, answers_of_advance ha⟩
    have hnone := (Work.passage_of_advance ha).1.input_eq.1
    rw [he] at hnone
    cases hnone

/-- What was handed to a call is a response that was taken, with the identifier of the call. -/
theorem response_of_mem_answers (h : server.session.Run events s) {p : Nat × ResponseMessage}
    (hp : p ∈ s.connection.calls.answers) :
    (∃ number, .taken number (.response p.2) ∈ events) ∧ p.2.id = some (Calls.idOf p.1) := by
  constructor
  · induction h with
    | start => cases hp
    | @next events s t event m hrun hm ih =>
      -- The answer was there before, or it has just come.
      have hcases : p ∈ s.connection.calls.answers ∨ event = .taken s.taken (.response p.2) := by
        rcases (change_of_move hm).answers_cases with ⟨-, he⟩ | ⟨r, he, hc, -⟩
        · exact .inl (he ▸ hp)
        · rw [hc] at hp
          exact (Calls.mem_answers_of_complete hp).imp_right fun hr => by rw [he, hr.1]
      rcases hcases with hp | he
      · obtain ⟨number, hn⟩ := ih hp
        exact ⟨number, List.mem_append_left _ hn⟩
      · exact ⟨_, List.mem_append_right _ (List.mem_singleton.2 he.symm)⟩
  · obtain ⟨history, x, hx, hs⟩ := exchange_of_run h
    have hsound := hx.sound (Exchange.sound_ofConnection _)
    rw [← hs.connection_eq] at hp
    exact (hsound.answered p hp).1

section Calls

variable (w) (method : String) (document : Option Json)

/-- A callback has not come back from a call: it is about to make it, or the call is under way.
Then `sent` is what it has sent meanwhile, with the parameters in `document`. -/
inductive Awaits (params : LspAny) (next : Outcome LspAny → Activity) (sent : List RpcMessage)
    (t : Session) : Prop
  | planned : w ∈ t.works → sent = [] → Awaits params next sent t
  | underWay {n : Nat} {stage : CallStage} :
    w.enter (.calling n stage method params next) ∈ t.works →
    sent = (if stage.hasSent then [.ofRequest (Calls.idOf n) method document] else []) →
    Awaits params next sent t

/-- What a call comes to, when `sent` is what the callback has sent meanwhile. -/
inductive Resolves (events : List Event) : List RpcMessage → Outcome LspAny → Prop
  | lost {sent : List RpcMessage} {text : String} :
    (sent = [] ∨ ∃ n, sent = [.ofRequest (Calls.idOf n) method document]) →
    Resolves events sent (.error (.connection text))
  | answered {n number : Nat} {r : ResponseMessage} :
    .taken number (.response r) ∈ events → r.id = some (Calls.idOf n) →
    Resolves events [.ofRequest (Calls.idOf n) method document] (Calls.resultOf r)

end Calls

/-- As long as the callback has not come back it has sent nothing but its request. -/
theorem Awaits.sent_cases {method : String} {document : Option Json} {params : LspAny}
    {next : Outcome LspAny → Activity} {sent : List RpcMessage}
    (h : Awaits w method document params next sent t) :
    sent = [] ∨ ∃ n, sent = [.ofRequest (Calls.idOf n) method document] := by
  cases h with
  | planned _ hsent => exact .inl hsent
  | @underWay n stage _ hsent =>
    split at hsent
    · exact .inr ⟨n, hsent⟩
    · exact .inl hsent

/-- A step of a call leaves it under way, or it comes to something. -/
private theorem awaits_or_resolves {next : Outcome LspAny → Activity} {method : String}
    {params : LspAny} {n : Nat} {stage : CallStage} {w' : Work} {c : Connection}
    {later : List Event} (h : server.session.Run events s)
    (ha : (w.enter (.calling n stage method params next)).advance s.connection =
      some (event, w', c))
    (hleft : w'.isOver = false → w' ∈ t.works)
    (hsent : sentBy w.number later =
      if stage.hasSent then [.ofRequest (Calls.idOf n) method params.asParams] else []) :
    Awaits w method params.asParams params next (sentBy w.number (later ++ [event])) t ∨
    ∃ outcome, w.enter (.acting (next outcome)) ∈ t.works ∧
      Resolves method params.asParams (events ++ [event]) (sentBy w.number (later ++ [event]))
        outcome := by
  obtain ⟨⟨e, step, c'⟩, hstep, he⟩ := Option.map_eq_some_iff.1 ha
  cases step with
  | goesOn stage' =>
    simp only [Prod.mk.injEq] at he
    obtain ⟨rfl, rfl, rfl⟩ := he
    refine .inl (.underWay (hleft rfl) ?_)
    rw [Event.sentBy_append, hsent]
    have hpassage := CallStage.passage_of_step hstep
    -- Only the stages matter here, not the table that they leave.
    generalize c'.calls = table at hpassage
    cases hpassage with
    | lists | turnsBack _ | passes _ => rfl
    | sends | fails => simp [sentBy?, CallStage.hasSent, Work.enter]
  | yields outcome =>
    simp only [Prod.mk.injEq] at he
    obtain ⟨rfl, rfl, rfl⟩ := he
    refine .inr ⟨outcome, hleft rfl, ?_⟩
    rw [Event.sentBy_append, hsent]
    have hpassage := CallStage.passage_of_step hstep
    generalize c'.calls = table at hpassage
    cases hpassage with
    | givesUp => exact .lost (.inl rfl)
    | withdraws | despairs _ _ => exact .lost (.inr ⟨n, rfl⟩)
    | receives hr =>
      obtain ⟨⟨number, hn⟩, hid⟩ := response_of_mem_answers h hr
      exact .answered (List.mem_append_left _ hn) hid

/-- A callback that calls the client sends nothing but its request, and goes on with what the call
comes to. -/
theorem leads_of_call (h : server.session.Run events s) (hw : w ∈ s.works) {method : String}
    {params : LspAny} {next : Outcome LspAny → Activity}
    (hs : w.stage = .acting (.call method params next)) :
    s.Leads (fun later t => Awaits w method params.asParams params next (sentBy w.number later) t)
      fun first u => ∃ outcome, w.enter (.acting (next outcome)) ∈ u.works ∧
        Resolves method params.asParams (events ++ first) (sentBy w.number first) outcome := by
  refine leads_of_move (.planned hw rfl) ?_
  intro later t m event u hrun hp hm
  have hall := h.trans hrun
  have hd := (accounts_of_run hall).nodup
  cases hp with
  | planned hin hsent =>
    rcases move_cases_of_mem hd hm hin with ⟨hin, ha⟩ | ⟨w', ha, hleft⟩
    · exact .inl (.planned hin (by rw [Event.sentBy_append_of_actor ha, hsent]))
    · -- The call takes its number, and nothing is sent yet.
      simp only [Work.advance, hs, Work.act, Option.some.injEq, Prod.mk.injEq] at ha
      obtain ⟨rfl, rfl, -⟩ := ha
      exact .inl (.underWay (hleft rfl) (by rw [Event.sentBy_append, hsent]; rfl))
  | underWay hin hsent =>
    rcases move_cases_of_mem hd hm hin with ⟨hin, ha⟩ | ⟨w', ha, hleft⟩
    · have ha : event.actor? ≠ some w.number := ha
      exact .inl (.underWay hin (by rw [Event.sentBy_append_of_actor ha, hsent]))
    · rw [← List.append_assoc]
      exact awaits_or_resolves hall ha hleft hsent

/-! ## Responses -/

/-- A response that is taken is handed to the call that is listed under its identifier. -/
theorem answer?_of_taken (h : server.session.Run events s) {number n : Nat} {r : ResponseMessage}
    (hm : s.move m = some (.taken number (.response r), t)) (hid : r.id = some (Calls.idOf n))
    (hn : (Calls.idOf n, n) ∈ s.connection.calls.pending) :
    t.connection.calls.answer? n = some r ∧ t.works = s.works := by
  rcases (change_of_move hm).answers_cases with ⟨hne, -⟩ | ⟨r', he, hc, hw⟩
  · exact absurd rfl (hne number r)
  · obtain ⟨-, hr⟩ := Event.taken.inj he
    obtain rfl : r = r' := RpcMessage.response.inj hr
    rw [hc]
    exact ⟨(Calls.complete_of_mem (pending_of_run h).1 hid hn).2, hw⟩

/-- A call keeps the response that it has. -/
theorem answer?_of_move (h : server.session.Run events s) (hm : s.move m = some (event, t))
    {n : Nat} {r : ResponseMessage} (hr : s.connection.calls.answer? n = some r) :
    t.connection.calls.answer? n = some r := by
  -- A call that has its answer no longer waits, so that no other response is kept for it.
  have hwaiting : s.connection.calls.isWaiting n = false := by
    obtain ⟨history, x, hx, hs⟩ := exchange_of_run h
    have hsound := hx.sound (Exchange.sound_ofConnection _)
    have hanswers := Calls.mem_answers_of_answer? hr
    rw [← hs.connection_eq] at hanswers ⊢
    rw [Bool.eq_false_iff, ne_eq, Calls.isWaiting_iff]
    rintro ⟨p, hp, hn⟩
    exact (hsound.answered _ hanswers).2.1 p hp hn
  rcases (change_of_move hm).answers_cases with ⟨-, he⟩ | ⟨r', -, hc, -⟩
  · rw [← hr, Calls.answer?, Calls.answer?, he]
  · rw [hc, Calls.answer?_complete hwaiting, hr]

/-- A call whose answer is there goes on with what the answer holds. -/
private theorem advance_of_answer {n : Nat} {method : String} {params : LspAny}
    {next : Outcome LspAny → Activity} {r : ResponseMessage}
    (hs : w.stage = .calling n .waiting method params next)
    (hr : s.connection.calls.answer? n = some r) :
    w.advance s.connection =
      some (.quiet, w.enter (.acting (next (Calls.resultOf r))), s.connection) := by
  simp only [Work.advance, hs, Work.call, CallStage.step, Calls.outcome?, hr, Option.map_some]

/-- A callback whose call has its response goes on with it, and with nothing else; and it can do so
at once. -/
theorem leads_of_answer (h : server.session.Run events s) (hw : w ∈ s.works) {n : Nat}
    {method : String} {params : LspAny} {next : Outcome LspAny → Activity} {r : ResponseMessage}
    (hs : w.stage = .calling n .waiting method params next)
    (hr : s.connection.calls.answer? n = some r) :
    s.Leads (fun later t => w ∈ t.works ∧ sentBy w.number later = [])
      (fun first u => w.enter (.acting (next (Calls.resultOf r))) ∈ u.works ∧
        sentBy w.number first = []) ∧
    ∃ m t, s.move m = some (.quiet, t) ∧
      w.enter (.acting (next (Calls.resultOf r))) ∈ t.works := by
  constructor
  · have hleads : s.Leads
        (fun later t => t.connection.calls.answer? n = some r ∧ w ∈ t.works ∧
          sentBy w.number later = [])
        (fun first u => w.enter (.acting (next (Calls.resultOf r))) ∈ u.works ∧
          sentBy w.number first = []) := by
      -- The response must not be replaced by another one meanwhile.
      refine leads_of_move ⟨hr, hw, rfl⟩ ?_
      intro later t m event u hrun hp hm
      obtain ⟨hr, hin, hsent⟩ := hp
      have hall := h.trans hrun
      rcases move_cases_of_mem (accounts_of_run hall).nodup hm hin with
        ⟨hin, ha⟩ | ⟨w', ha, hleft⟩
      · exact .inl ⟨answer?_of_move hall hm hr, hin,
          by rw [Event.sentBy_append_of_actor ha, hsent]⟩
      · rw [advance_of_answer hs hr, Option.some.injEq, Prod.mk.injEq, Prod.mk.injEq] at ha
        obtain ⟨rfl, rfl, -⟩ := ha
        exact .inr ⟨hleft rfl, by rw [Event.sentBy_append, hsent]; rfl⟩
    exact hleads.mono (fun _ _ hp => hp.2) fun _ _ hdone => hdone
  · obtain ⟨m, t, rest, hm, -, ht⟩ := exists_move_of_advance (inTurn_of_run h)
      (accounts_of_run h).nodup hw (by rw [hs]; exact nofun) (advance_of_answer hs hr)
    exact ⟨m, t, hm, ht.mem_iff.2 List.mem_cons_self⟩

/-! ## The end of a callback -/

/-- What a callback ends with is the conclusion of the handling of its message. -/
theorem leads_of_done (h : server.session.Run events s) (hw : w ∈ s.works)
    {outcome : Outcome (Option LspAny)} (hs : w.stage = .acting (.done outcome)) :
    s.Leads
      (fun later t => conclusions w.number (events ++ later) = [] ∧
        (w ∈ t.works ∨ w.enter (.decided (.ofOutcome outcome)) ∈ t.works))
      fun first _ => conclusions w.number (events ++ first) =
        [.returned (.ofOutcome outcome)] := by
  have hnone : conclusions w.number events = [] := by
    have ht := (accounts_of_run h).tells w hw
    simp only [Work.Tells, hs] at ht
    rw [Event.conclusions_eq, ht]
    rfl
  refine leads_of_move ⟨by rw [List.append_nil, hnone], .inl hw⟩ ?_
  intro later t m event u hrun hp hm
  obtain ⟨hc, hin⟩ := hp
  have hd := (accounts_of_run (h.trans hrun)).nodup
  rw [← List.append_assoc]
  -- The callback is about to end, or it has ended and the handler is about to be done.
  rcases hin with hin | hin
  · rcases move_cases_of_mem hd hm hin with ⟨hin, ha⟩ | ⟨w', ha, hleft⟩
    · exact .inl ⟨by rw [Event.conclusions_append_of_actor ha, hc], .inl hin⟩
    · simp only [Work.advance, hs, Work.act, Option.some.injEq, Prod.mk.injEq] at ha
      obtain ⟨rfl, rfl, -⟩ := ha
      have hq : Event.quiet.actor? ≠ some w.number := by simp [Event.actor?]
      exact .inl ⟨by rw [Event.conclusions_append_of_actor hq, hc], .inr (hleft rfl)⟩
  · rcases move_cases_of_mem hd hm hin with ⟨hin, ha⟩ | ⟨w', ha, -⟩
    · have ha : event.actor? ≠ some w.number := ha
      exact .inl ⟨by rw [Event.conclusions_append_of_actor ha, hc], .inr hin⟩
    · simp only [Work.advance, Work.enter, Option.some.injEq, Prod.mk.injEq] at ha
      obtain ⟨rfl, -, -⟩ := ha
      refine .inr ?_
      rw [Event.conclusions_append, hc]
      simp [conclusions, Event.conclusionOf?]

/-- Work with an identifier is work on a request that was taken. -/
theorem request_of_mem_works {timeout : Option Nat} (ha : s.Accounts timeout events)
    (hw : w ∈ s.works) {id : Id} (hid : w.context.id = some id) :
    ∃ q, (w.number, .request q) ∈ arrivals events ∧ q.id = id ∧ q.method = w.context.method := by
  -- Work knows the message it was taken for, and only a request gives it an id.
  obtain ⟨m, hm, hx⟩ := ha.known w hw
  cases m with
  | request q =>
    rw [← Option.some.inj hx] at hid ⊢
    exact ⟨q, hm, Option.some.inj hid, rfl⟩
  | notification n =>
    rw [← Option.some.inj hx] at hid
    cases hid
  | response r => cases hx

/-- A request whose callback has ended is answered as its outcome asks: at most once, and once when
no work on it is left and messages are still written. -/
theorem answers_of_done (h : server.session.Run events s) (hw : w ∈ s.works) {id : Id}
    (hid : w.context.id = some id) {outcome : Outcome (Option LspAny)}
    (hs : w.stage = .acting (.done outcome)) {later : List Event} (hlater : s.Run later t) :
    (answers w.number (events ++ later)).Sublist
      [.response ((DispatchResult.ofOutcome outcome).response id w.context.method)] ∧
    (w.number ∉ t.numbers → t.connection.writing = true →
      answers w.number (events ++ later) =
        [.response ((DispatchResult.ofOutcome outcome).response id w.context.method)]) := by
  have hall := h.trans hlater
  have ha := accounts_of_run hall
  obtain ⟨q, hq, hqid, hqm⟩ := request_of_mem_works (accounts_of_run h) hw hid
  have hq : (w.number, .request q) ∈ arrivals (events ++ later) := by
    rw [arrivals, List.filterMap_append]
    exact List.mem_append_left _ hq
  obtain ⟨hone, hstory⟩ := ha.answer_of_request hq
  have hsub := Event.answers_sublist w.number (events ++ later)
  rcases hstory with ⟨hin, hstory⟩ | ⟨hlen, hstory⟩
  · rw [hstory] at hsub
    exact ⟨hsub.trans (List.nil_sublist _), fun hn => absurd hin hn⟩
  · have hc : conclusions w.number (events ++ later) = [.returned (.ofOutcome outcome)] := by
      rcases leads_of_done h hw hs later t hlater with ⟨hnil, -⟩ | ⟨first, rest, -, rfl, -, hc, -⟩
      · simp [hnil] at hlen
      · -- There is one conclusion at most, so none comes after it.
        rw [← List.append_assoc, Event.conclusions_append, hc] at hone ⊢
        rw [List.length_append, List.length_singleton] at hone
        rw [List.eq_nil_of_length_eq_zero (show (conclusions w.number rest).length = 0 by omega),
          List.append_nil]
    rw [hc] at hstory
    simp only [List.map_cons, List.map_nil, Conclusion.answer, hqid, hqm] at hstory
    rw [hstory] at hsub
    refine ⟨hsub, fun _ hwriting => ?_⟩
    rw [Event.answers_eq (isDropped_of_run hall hwriting), hstory]

end Session

end LanguageServer
