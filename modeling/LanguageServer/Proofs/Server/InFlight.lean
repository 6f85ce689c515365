import LanguageServer.Proofs.Server.Effect

/-!
# The requests in flight

A request is in flight from its arrival until its answer is about to be queued.  The connection
keeps a table of these requests by identifier, which the reader fills and all work empties.

The invariant is `Session.Flights`: the table lists the requests that the work in hand has yet to
answer, no more and no less.  `Session.flights_of_run` says that every run keeps it in which the
client uses no identifier again before its request is answered.
-/

namespace LanguageServer

open Event (arrivals story conclusions answers)

namespace Event

/-- No request has the identifier of an earlier one that is not answered yet. -/
def KeepsIds (events : List Event) : Prop :=
  ∀ before after number q, events = before ++ .taken number (.request q) :: after →
    ∀ earlier p, Event.taken earlier (.request p) ∈ before → p.id = q.id →
      answers earlier before ≠ []

/-- Identifiers were kept apart earlier, too. -/
theorem KeepsIds.of_append {before after : List Event} (h : KeepsIds (before ++ after)) :
    KeepsIds before := by
  intro past rest number q he
  refine h past (rest ++ after) number q ?_
  rw [he, List.append_assoc, List.cons_append]

/-- The identifier of the request that is taken in an event. -/
def requestId? : Event → Option Id
  | .taken _ (.request q) => some q.id
  | _ => none

/-- Identifiers that differ are kept apart. -/
theorem KeepsIds.of_nodup {events : List Event} (h : (events.filterMap requestId?).Nodup) :
    KeepsIds events := by
  intro before after number q he earlier p hp hid
  rw [he, List.filterMap_append, List.nodup_append] at h
  have hbefore : p.id ∈ before.filterMap requestId? := List.mem_filterMap.2 ⟨_, hp, rfl⟩
  have hafter : q.id ∈ (Event.taken number (.request q) :: after).filterMap requestId? :=
    List.mem_filterMap.2 ⟨_, List.mem_cons_self, rfl⟩
  exact absurd hid (h.2.2 _ hbefore _ hafter)

end Event

/-! ## The table of requests in flight -/

/-- A cancellation leaves the requests in flight as they are. -/
theorem Connection.inFlight_cancel (c : Connection) (id : Id) :
    (c.cancel id).inFlight = c.inFlight := by
  simp only [cancel]
  split <;> rfl

namespace Work

/-- Whether the answer to a message is still to be made. -/
def isOwed (w : Work) : Bool :=
  match w.stage with
  | .settled _ => false
  | .finished => false
  | _ => true

/-- The entry for a request among the requests in flight. -/
def flight? (w : Work) : Option (Id × Nat) :=
  if w.isOwed then w.context.id.map (·, w.number) else none

variable {w w' : Work} {c c' : Connection} {event : Event}

/-- Work is in flight under the identifier of its request as long as an answer is owed. -/
theorem flight?_eq_some {id : Id} {number : Nat} :
    w.flight? = some (id, number) ↔
      w.isOwed = true ∧ w.context.id = some id ∧ w.number = number := by
  cases ho : w.isOwed with
  | false => simp [flight?, ho]
  | true =>
    simp only [flight?, ho, if_true, Option.map_eq_some_iff, Prod.mk.injEq, true_and]
    constructor
    · rintro ⟨_, hid, rfl, hn⟩
      exact ⟨hid, hn⟩
    · exact fun ⟨hid, hn⟩ => ⟨id, hid, rfl, hn⟩

/-- Work stays in flight while an answer is owed. -/
theorem flight?_enter {stage : Stage} (ho : w.isOwed = true)
    (hs : (w.enter stage).isOwed = true) : (w.enter stage).flight? = w.flight? := by
  simp only [flight?, ho, hs, if_true]
  rfl

/-- The end of the handling of a request leaves it in flight. -/
theorem flight?_answerWith {answer : Id → ResponseMessage} (ho : w.isOwed = true) :
    (w.answerWith answer).flight? = w.flight? := by
  simp only [answerWith]
  cases hid : w.context.id with
  | some id => exact flight?_enter ho rfl
  | none => simp [flight?, hid, enter]

/-- What a step of the work on a message does to the requests in flight: nothing, until it takes its
own request off the table. -/
inductive Landing (w : Work) (c : Connection) (w' : Work) (c' : Connection) : Prop
  | stays : w'.flight? = w.flight? → c'.inFlight = c.inFlight → c'.cancelled = c.cancelled →
    Landing w c w' c'
  | lands {id : Id} : w.flight? = some (id, w.number) → w'.flight? = none → c' = c.settle id →
    Landing w c w' c'

/-- Sending a message lands nothing. -/
private theorem landing_send {sender : Sender} {m : RpcMessage} (hf : w'.flight? = w.flight?) :
    w.Landing c w' (c.send sender m).2 := by
  simp only [Connection.send]
  split <;> exact .stays hf rfl rfl

/-- Every step of the work on a message does one of these. -/
theorem landing_of_advance (h : w.advance c = some (event, w', c')) : w.Landing c w' c' := by
  cases stride_of_advance h with
  | turnsAway hs _ | chooses hs _ | refuses hs _ | rejects hs _ _ | starts hs _ _ | ends hs
  | notes hs | calls hs | wakes hs _ | handles hs _ =>
    exact .stays (flight?_enter (by simp [isOwed, hs]) rfl) rfl rfl
  | panics hs | concludes hs => exact .stays (flight?_answerWith (by simp [isOwed, hs])) rfl rfl
  | notifies hs => exact landing_send (flight?_enter (by simp [isOwed, hs]) rfl)
  | goesOn hs hstep | returns hs hstep =>
    have ho : w.isOwed = true := by simp [isOwed, hs]
    rcases CallStage.step_cases hstep with ⟨-, calls, rfl⟩ | hs
    · exact .stays (flight?_enter ho rfl) rfl rfl
    · rw [Prod.mk.injEq] at hs
      rw [hs.2]
      exact landing_send (flight?_enter ho rfl)
  -- This is the step in which a request leaves the table.
  | settles hs hid => exact .lands (flight?_eq_some.2 ⟨by simp [isOwed, hs], hid, rfl⟩) rfl rfl
  | lapses hs hid => exact .stays (by simp [flight?, enter, hid]) rfl rfl
  | answers hs => exact landing_send (by simp [flight?, isOwed, hs, enter])

end Work

namespace Session

variable {s t : Session} {event : Event} {events : List Event} {timeout : Option Nat}

/-- Whether the answer to a message is still to be made. -/
def Owes (s : Session) (number : Nat) : Prop :=
  ∃ w ∈ s.works, w.number = number ∧ w.isOwed = true

/-- The table of requests in flight lists the requests that are still to be answered, by identifiers
that differ. -/
structure Flights (s : Session) : Prop where
  nodup : (s.connection.inFlight.map (·.1)).Nodup
  perm : s.connection.inFlight.Perm (s.works.filterMap Work.flight?)

namespace Flights

/-- A request with a new identifier joins the table. -/
private theorem next_takes {m : RpcMessage} (hs : s.Flights)
    (hnew : ∀ q, m = .request q → ∀ number, (q.id, number) ∉ s.connection.inFlight)
    (hc : t.connection = s.connection.takeIn s.taken m)
    (hw : t.works.Perm ((s.workOn? m).toList ++ s.works)) : t.Flights := by
  have hw := hw.filterMap Work.flight?
  cases m with
  | request q =>
    have hnew := hnew q rfl
    -- The identifier is free, so that the new entry takes the place of no other.
    have hkeep : s.connection.inFlight.filter (·.1 != q.id) = s.connection.inFlight := by
      refine List.filter_eq_self.2 fun p hp => bne_iff_ne.2 fun he => ?_
      exact hnew p.2 (he ▸ hp)
    have hin : t.connection.inFlight = (q.id, s.taken) :: s.connection.inFlight := by
      rw [hc]
      exact congrArg _ hkeep
    refine ⟨?_, ?_⟩
    · rw [hin, List.map_cons, List.nodup_cons]
      refine ⟨fun hm => ?_, hs.nodup⟩
      obtain ⟨⟨id, number⟩, hp, rfl⟩ := List.mem_map.1 hm
      exact hnew number hp
    · rw [hin]
      exact (hs.perm.cons (q.id, s.taken)).trans hw.symm
  | notification q =>
    -- The answer to the frame is sent, which concerns no request in flight.
    have hin : t.connection.inFlight = s.connection.inFlight := by
      rw [hc]
      simp only [Connection.takeIn]
      split
      · exact s.connection.inFlight_cancel _
      · rfl
    exact ⟨hin ▸ hs.nodup, hin ▸ hs.perm.trans hw.symm⟩
  | response r =>
    have hin : t.connection.inFlight = s.connection.inFlight := by rw [hc]; rfl
    exact ⟨hin ▸ hs.nodup, hin ▸ hs.perm.trans hw.symm⟩

/-- Work that takes a step takes its own request off the table, if any. -/
private theorem next_advances {w w' : Work} {rest : List Work} (hs : s.Flights)
    (hb : s.works.Perm (w :: rest)) (ha : w.advance s.connection = some (event, w', t.connection))
    (hw : t.works.Perm (w'.left ++ rest)) : t.Flights := by
  have hperm := hs.perm.trans (hb.filterMap Work.flight?)
  have hleft : w'.left.filterMap Work.flight? = w'.flight?.toList := by
    cases ho : w'.isOver with
    | false => cases hf : w'.flight? <;> simp [Work.left, ho, hf]
    | true =>
      -- Work that is done has been answered.
      have hf : w'.isOwed = false := by
        cases hst : w'.stage <;> simp_all [Work.isOver, Work.isOwed]
      simp [Work.left, ho, Work.flight?, hf]
  have hwork := hw.filterMap Work.flight?
  rw [List.filterMap_append, hleft] at hwork
  cases Work.landing_of_advance ha with
  | stays hf hin _ =>
    refine ⟨hin ▸ hs.nodup, hin ▸ hperm.trans ?_⟩
    rw [hf] at hwork
    refine .trans (.of_eq ?_) hwork.symm
    cases hwf : w.flight? <;> simp [hwf]
  | @lands id hf hf' hc =>
    rw [List.filterMap_cons, hf] at hperm
    rw [hf'] at hwork
    have hnd := (hperm.map (·.1)).nodup_iff.1 hs.nodup
    rw [List.map_cons, List.nodup_cons] at hnd
    -- All entries but its own have another identifier.
    have hrest : (rest.filterMap Work.flight?).filter (·.1 != id) = rest.filterMap Work.flight? :=
      List.filter_eq_self.2 fun p hp =>
        bne_iff_ne.2 fun he => hnd.1 (List.mem_map.2 ⟨p, hp, he⟩)
    have hin : t.connection.inFlight = s.connection.inFlight.filter (·.1 != id) := by rw [hc]; rfl
    have hp := hperm.filter (·.1 != id)
    rw [List.filter_cons_of_neg (by simp), hrest] at hp
    refine ⟨?_, hin ▸ hp.trans hwork.symm⟩
    rw [hin, (hp.map _).nodup_iff]
    exact hnd.2

/-- A move keeps the table, unless a request comes with the identifier of one in flight. -/
theorem next {m : Move} (hs : s.Flights) (h : s.Effect m event t)
    (hnew : ∀ k q, event = .taken k (.request q) →
      ∀ number, (q.id, number) ∉ s.connection.inFlight) : t.Flights := by
  cases h with
  | outward _ hc hw _ | winds hc hw _ | givesUp _ hc hw _ | writes _ _ hc hw _ | ends _ _ hc hw _ =>
    exact ⟨by rw [hc]; exact hs.nodup, by rw [hc, hw]; exact hs.perm⟩
  -- An answer of the reader takes nothing out of the table.
  | rejects hc hw _ =>
    have hin : t.connection.inFlight = s.connection.inFlight := by
      rw [hc]
      simp only [Connection.send]
      split <;> rfl
    exact ⟨hin ▸ hs.nodup, by rw [hin, hw]; exact hs.perm⟩
  | takes _ hc hw _ => exact hs.next_takes (fun q hq => hnew _ q (by rw [hq])) hc hw
  | advances _ hb ha hw _ => exact hs.next_advances hb ha hw

end Flights

/-- Nothing has been answered on account of a message that is still to be answered. -/
theorem Accounts.answers_eq_nil (ha : s.Accounts timeout events) {number : Nat}
    (ho : s.Owes number) : answers number events = [] := by
  obtain ⟨w, hw, rfl, ho⟩ := ho
  have hs := Event.answers_sublist w.number events
  have ht := ha.tells w hw
  -- As long as it is owed, the story has not come to the answer.
  have hn : (story w.number events).filterMap Deed.answer? = [] := by
    cases hst : w.stage with
    | arrived | chosen _ | acting _ | calling _ _ _ _ _ | decided _ =>
      simp only [Work.Tells, hst] at ht
      rw [ht]
      rfl
    | handled answer =>
      simp only [Work.Tells, hst] at ht
      obtain ⟨c, hc, -⟩ := ht
      rw [hc]
      rfl
    | settled _ | finished => simp [Work.isOwed, hst] at ho
  rw [hn] at hs
  exact List.sublist_nil.1 hs

/-- A request is to be answered as long as its handling has not come to a conclusion. -/
theorem Accounts.owes (ha : s.Accounts timeout events) {number : Nat} {q : RequestMessage}
    (hq : (number, .request q) ∈ arrivals events) (hc : conclusions number events = []) :
    s.Owes number := by
  rw [Event.conclusions_eq] at hc
  rcases ha.story_cases hq rfl with ⟨hn, -⟩ | ⟨c, h⟩
  · obtain ⟨w, hw, rfl⟩ := mem_numbers.1 hn
    -- Behind the conclusion the story would show it, so that the work is before it.
    refine ⟨w, hw, rfl, ?_⟩
    have ht := ha.tells w hw
    cases hst : w.stage with
    | settled _ =>
      simp only [Work.Tells, hst] at ht
      obtain ⟨c, h, -⟩ := ht
      simp [h, Deed.conclusion?] at hc
    | finished =>
      simp only [Work.Tells, hst] at ht
      obtain ⟨c, h⟩ := ht
      cases hid : w.context.id <;> simp [h, Context.story, hid, Deed.conclusion?] at hc
    | _ => simp [Work.isOwed, hst]
  · simp [h, Context.story, RequestMessage.context, Deed.conclusion?] at hc

/-- A request in flight was taken, and is still to be answered. -/
theorem Flights.mem_iff (hs : s.Flights) (ha : s.Accounts timeout events) {id : Id}
    {number : Nat} : (id, number) ∈ s.connection.inFlight ↔
      ∃ q, (number, .request q) ∈ arrivals events ∧ q.id = id ∧ s.Owes number := by
  rw [hs.perm.mem_iff, List.mem_filterMap]
  constructor
  · -- What is in flight is work on a message with an identifier, which is a request.
    rintro ⟨w, hw, hf⟩
    obtain ⟨ho, hid, rfl⟩ := Work.flight?_eq_some.1 hf
    obtain ⟨m, hm, hx⟩ := ha.known w hw
    cases m with
    | request q =>
      rw [← Option.some.inj hx] at hid
      exact ⟨q, hm, Option.some.inj hid, w, hw, rfl, ho⟩
    -- A notification has no identifier.
    | notification q =>
      rw [← Option.some.inj hx] at hid
      cases hid
    | response r => cases hx
  · -- Work that owes an answer is on the request that was taken under its number.
    rintro ⟨q, hq, rfl, w, hw, rfl, ho⟩
    obtain ⟨m, hm, hx⟩ := ha.known w hw
    rw [ha.arrival_unique hm hq] at hx
    exact ⟨w, hw, Work.flight?_eq_some.2 ⟨ho, by rw [← Option.some.inj hx]; rfl, rfl⟩⟩

/-- The table of requests in flight is in order throughout a run. -/
theorem flights_of_run {server : Server} (h : server.session.Run events s)
    (hids : Event.KeepsIds events) : s.Flights := by
  induction h with
  | start => exact ⟨List.nodup_nil, .nil⟩
  | @next events t u event m hrun hm ih =>
    have hs := ih hids.of_append
    have ha := accounts_of_run hrun
    refine hs.next (effect_of_move ha.nodup hm) fun k q he number hin => ?_
    -- The request in flight is not answered, so that its identifier is not free.
    obtain ⟨p, hp, hid, ho⟩ := (hs.mem_iff ha).1 hin
    have hne := hids events [] k q (by rw [he]) number p (mem_arrivals.1 hp) hid
    exact hne (ha.answers_eq_nil ho)

end Session

end LanguageServer
