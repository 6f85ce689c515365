import LanguageServer.Proofs.Server.Accounts
import LanguageServer.Proofs.Server.Exchange

/-!
# The calls of a session

A session is an exchange with its client, in which the calls are those of its callbacks:
`Session.exchange_of_run` follows every move of a session with a step of an exchange.  So all that
is true of an exchange holds in a session.  In particular, by `Session.isSome_advance_of_draining`,
no callback waits for the client any more when the worker finishes what is left.
-/

namespace LanguageServer

/-- The number of the call that a callback has under way. -/
def Work.call? (w : Work) : Option Nat :=
  match w.stage with
  | .calling call .. => some call
  | _ => none

namespace Work

/-- What a step of the work on a message does to the calls. -/
inductive Calling (w : Work) (c : Connection) : Work → Connection → Prop
  | aside {w' : Work} {c' : Connection} : w.call? = none → w'.call? = none → c'.calls = c.calls →
    Calling w c w' c'
  | begins {method : String} {params : LspAny} {next : Outcome LspAny → Activity} :
    w.call? = none →
    Calling w c (w.enter (.calling c.calls.taken .numbered method params next))
      { c with calls := c.calls.take.2 }
  | goesOn {call : Nat} {stage next : CallStage} {method : String} {params : LspAny}
      {f : Outcome LspAny → Activity} {event : Event} {c' : Connection} :
    w.stage = .calling call stage method params f →
    stage.step c (.callback w.number) call method params = some (event, .goesOn next, c') →
    Calling w c (w.enter (.calling call next method params f)) c'
  | returns {call : Nat} {stage : CallStage} {outcome : Outcome LspAny} {method : String}
      {params : LspAny} {f : Outcome LspAny → Activity} {event : Event} {c' : Connection} :
    w.stage = .calling call stage method params f →
    stage.step c (.callback w.number) call method params = some (event, .yields outcome, c') →
    Calling w c (w.enter (.acting (f outcome))) c'

/-- Work that is to be answered has no call under way. -/
theorem call?_answerWith (w : Work) (answer : Id → ResponseMessage) :
    (w.answerWith answer).call? = none := by
  simp only [answerWith]
  split <;> rfl

/-- Every step of the work on a message deals with the calls in one of these ways. -/
theorem calling_of_advance {w w' : Work} {c c' : Connection} {event : Event}
    (h : w.advance c = some (event, w', c')) : w.Calling c w' c' := by
  cases stride_of_advance h with
  | turnsAway hs _ | chooses hs _ | refuses hs _ | rejects hs _ _ | starts hs _ _ | ends hs
  | notes hs | wakes hs _ | handles hs _ | settles hs _ | lapses hs _ =>
    exact .aside (by rw [call?, hs]) rfl rfl
  | panics hs | concludes hs => exact .aside (by rw [call?, hs]) (w.call?_answerWith _) rfl
  | notifies hs | answers hs => exact .aside (by rw [call?, hs]) rfl (c.calls_send _ _)
  | calls hs => exact .begins (by rw [call?, hs])
  | goesOn hs hstep => exact .goesOn hs hstep
  | returns hs hstep => exact .returns hs hstep

end Work

/-- It makes no difference to a call who makes it. -/
theorem CallStage.step_sender {c c' : Connection} {sender : Sender} {n : Nat} {method : String}
    {params : LspAny} {stage : CallStage} {event : Event} {next : CallStep}
    (h : stage.step c sender n method params = some (event, next, c')) (other : Sender) :
    ∃ event', stage.step c other n method params = some (event', next, c') := by
  cases stage with
  | numbered | enlisted | refused | failed | waiting => exact ⟨event, h⟩
  | unsent =>
    simp only [step, Connection.send, Option.some.injEq, Prod.mk.injEq] at h ⊢
    obtain ⟨-, rfl, rfl⟩ := h
    cases c.writing <;> exact ⟨_, rfl, rfl, rfl⟩

namespace Exchange

variable {x y : Exchange} {works : List Work}

/-- The calls that works have under way are calls of the exchange, each of one work. -/
structure Covers (x : Exchange) (works : List Work) : Prop where
  nodup : (works.filterMap Work.call?).Nodup
  under_way : ∀ w ∈ works, ∀ (n : Nat) (stage : CallStage) (method : String) (params : LspAny)
    (f : Outcome LspAny → Activity), w.stage = .calling n stage method params f →
    x.calls[n]? = some ⟨n, method, params, .goesOn stage⟩

namespace Covers

/-- It does not matter in which order work is listed. -/
theorem of_perm {works' : List Work} (h : x.Covers works) (hp : works'.Perm works) :
    x.Covers works' :=
  ⟨(hp.filterMap _).nodup_iff.2 h.nodup, fun w hw => h.under_way w (hp.mem_iff.1 hw)⟩

/-- Less work has less calls. -/
theorem tail {w : Work} {rest : List Work} (h : x.Covers (w :: rest)) : x.Covers rest := by
  refine ⟨?_, fun v hv => h.under_way v (List.mem_cons_of_mem _ hv)⟩
  have hnd := h.nodup
  rw [List.filterMap_cons] at hnd
  split at hnd
  · exact hnd
  · exact (List.nodup_cons.1 hnd).2

/-- A call that is under way is a call of the exchange. -/
theorem lt_length (h : x.Covers works) {n : Nat} (hn : n ∈ works.filterMap Work.call?) :
    n < x.calls.length := by
  obtain ⟨w, hw, hc⟩ := List.mem_filterMap.1 hn
  cases hs : w.stage with
  | calling k stage method params f =>
    rw [Work.call?, hs, Option.some.injEq] at hc
    rw [← hc]
    exact (List.getElem?_eq_some_iff.1 (h.under_way w hw k stage method params f hs)).1
  | _ => simp [Work.call?, hs] at hc

/-- Work without a call makes no difference. -/
private theorem cons_of_none (h : x.Covers works) (hc : y.calls = x.calls) {w : Work}
    (hw : w.call? = none) : y.Covers (w :: works) := by
  refine ⟨by simpa [List.filterMap_cons, hw] using h.nodup, ?_⟩
  intro v hv n stage method params f hs
  rcases List.mem_cons.1 hv with rfl | hv
  · simp [Work.call?, hs] at hw
  · exact hc ▸ h.under_way v hv n stage method params f hs

/-- Work that is done may be left out. -/
private theorem left {w : Work} {rest : List Work} (h : x.Covers (w :: rest)) :
    x.Covers (w.left ++ rest) := by
  cases ho : w.isOver with
  | true => simpa [Work.left, ho] using h.tail
  | false => simpa [Work.left, ho] using h

/-- The calls of other works stay as they are while one call takes a step. -/
private theorem under_way_set {n : Nat} {rest : List Work} (h : x.Covers rest)
    (hn : n ∉ rest.filterMap Work.call?) (call : Call) (connection : Connection) :
    Covers { x with connection, calls := x.calls.set n call } rest := by
  refine ⟨h.nodup, fun v hv m stage method params f hs => ?_⟩
  have hm : n ≠ m := by
    rintro rfl
    exact hn (List.mem_filterMap.2 ⟨v, hv, by rw [Work.call?, hs]⟩)
  exact (List.getElem?_set_ne hm).trans (h.under_way v hv m stage method params f hs)

/-- No other work has the call of a work under way. -/
private theorem not_mem_of_calling {w : Work} {rest : List Work} {n : Nat} {stage : CallStage}
    {method : String} {params : LspAny} {f : Outcome LspAny → Activity}
    (h : x.Covers (w :: rest)) (hs : w.stage = .calling n stage method params f) :
    n ∉ rest.filterMap Work.call? := by
  have hnd := h.nodup
  rw [List.filterMap_cons, Work.call?, hs] at hnd
  exact (List.nodup_cons.1 hnd).1

/-- A step of a call is a step of the exchange. -/
private theorem step_advance {n : Nat} {stage : CallStage} {method : String} {params : LspAny}
    {sender : Sender} {event : Event} {next : CallStep} {c' : Connection}
    (hn : x.calls[n]? = some ⟨n, method, params, .goesOn stage⟩)
    (h : stage.step x.connection sender n method params = some (event, next, c')) :
    ∃ event', x.step (.advance n) = some (event',
      { x with connection := c', calls := x.calls.set n ⟨n, method, params, next⟩ }) := by
  obtain ⟨event', h'⟩ := CallStage.step_sender h (.callback n)
  exact ⟨event', by simp only [step, Exchange.advance, hn, h', Option.map_some]⟩

/-- A step of a work is a step of the exchange. -/
theorem advance {w w' : Work} {rest : List Work} {c' : Connection} (h : x.Covers (w :: rest))
    (hx : x.Sound) (hw : w.Calling x.connection w' c') :
    ∃ a event y, x.step a = some (event, y) ∧ y.connection = c' ∧ y.closing = x.closing ∧
      y.Covers (w' :: rest) := by
  have hrest := h.tail
  cases hw with
  | aside _ hw' hc =>
    -- To the exchange this is something else that goes on at the connection.
    have he : { c' with calls := x.table } = c' := by rw [table, ← hc]
    refine ⟨.other c', .quiet, _, rfl, he, rfl, hrest.cons_of_none ?_ hw'⟩
    rfl
  | @begins method params f _ =>
    refine ⟨.call method params, .quiet, _, rfl, rfl, rfl, ?_, ?_⟩
    · refine List.nodup_cons.2 ⟨fun hm => ?_, hrest.nodup⟩
      -- The new call has the next number, which none under way can have.
      have hlt := hrest.lt_length hm
      rw [← hx.taken_eq] at hlt
      exact Nat.lt_irrefl _ hlt
    · intro v hv n stage method' params' f' hs
      rcases List.mem_cons.1 hv with rfl | hv
      · simp only [Work.enter, Stage.calling.injEq] at hs
        obtain ⟨rfl, rfl, rfl, rfl, -⟩ := hs
        show (x.calls ++ [_])[x.table.taken]? = _
        rw [hx.taken_eq, List.getElem?_concat_length]
        simp only [table, hx.taken_eq.symm]
      · exact getElem?_append_of_some (hrest.under_way v hv n stage method' params' f' hs)
  | @goesOn n stage next method params f _ _ hs hstep =>
    have hn := h.under_way w List.mem_cons_self n stage method params f hs
    have hnot := h.not_mem_of_calling hs
    obtain ⟨event', hstep'⟩ := step_advance hn hstep
    have hc := hrest.under_way_set hnot ⟨n, method, params, .goesOn next⟩ c'
    refine ⟨.advance n, event', _, hstep', rfl, rfl, List.nodup_cons.2 ⟨hnot, hrest.nodup⟩, ?_⟩
    intro v hv m stage' method' params' f' hs'
    rcases List.mem_cons.1 hv with rfl | hv
    · simp only [Work.enter, Stage.calling.injEq] at hs'
      obtain ⟨rfl, rfl, rfl, rfl, -⟩ := hs'
      exact getElem?_set_of_some hn
    · exact hc.under_way v hv m stage' method' params' f' hs'
  | @returns n stage outcome method params f _ _ hs hstep =>
    have hn := h.under_way w List.mem_cons_self n stage method params f hs
    have hnot := h.not_mem_of_calling hs
    obtain ⟨event', hstep'⟩ := step_advance hn hstep
    have hc := hrest.under_way_set hnot ⟨n, method, params, .yields outcome⟩ c'
    exact ⟨.advance n, event', _, hstep', rfl, rfl, hc.cons_of_none rfl rfl⟩

end Covers

end Exchange

namespace Session

open Exchange (Covers)

variable {s t : Session} {event : Event} {events : List Event}

/-- An exchange that shows the calls of a session. -/
structure Shows (s : Session) (x : Exchange) : Prop where
  connection_eq : x.connection = s.connection
  closing_eq : x.closing = s.phase.toClosing
  covers : x.Covers s.works

/-- Every move of a session is a step of the exchange, or none. -/
theorem Shows.next {x : Exchange} (hs : s.Shows x) (hx : x.Sound) (hd : s.numbers.Nodup)
    (h : s.Change event t) : t.Shows x ∨ ∃ a e y, x.step a = some (e, y) ∧ t.Shows y := by
  obtain ⟨hc, hp, hcov⟩ := hs
  have hother : ∀ connection : Connection, connection.calls = s.connection.calls →
      { connection with calls := x.table } = connection := by
    intro connection he
    rw [Exchange.table, hc, ← he]
  -- The closing takes its steps in both; what leaves the calls alone is something else there.
  cases h with
  | @aside _ connection _ _ phase _ _ _ _ _ hw _ _ =>
    cases hw with
    | nothing he hph =>
      refine .inr ⟨.other connection, .quiet, _, rfl, hother _ he, hp.trans hph.symm, ?_⟩
      exact ⟨hcov.nodup, hcov.under_way⟩
    | closes hph =>
      rw [hph] at hp
      refine .inr ⟨.close, .quiet, _, by simp only [Exchange.step, Exchange.close, hp]; rfl, ?_⟩
      exact ⟨by rw [← hc]; rfl, rfl, hcov.nodup, hcov.under_way⟩
    | cancels hph =>
      rw [hph] at hp
      refine .inr ⟨.close, .quiet, _, by simp only [Exchange.step, Exchange.close, hp]; rfl, ?_⟩
      exact ⟨by rw [← hc], rfl, hcov.nodup, hcov.under_way⟩
    | clears hph =>
      rw [hph] at hp
      refine .inr ⟨.close, .quiet, _, by simp only [Exchange.step, Exchange.close, hp]; rfl, ?_⟩
      exact ⟨by rw [← hc]; rfl, rfl, hcov.nodup, hcov.under_way⟩
  | @resolves r _ _ =>
    refine .inr ⟨.complete r, .quiet, _, rfl, by rw [← hc]; rfl, hp, ?_⟩
    exact ⟨hcov.nodup, hcov.under_way⟩
  | @queues _ _ connection _ _ _ _ _ _ he hph _ _ _ =>
    refine .inr ⟨.other connection, .quiet, _, rfl, hother _ he, hp.trans hph.symm, ?_⟩
    refine (hcov.cons_of_none ?_ rfl).of_perm (perm_works_queue s _)
    rfl
  | @starts _ _ connection _ _ _ he _ _ =>
    refine .inr ⟨.other connection, .quiet, _, rfl, hother _ he, hp, ?_⟩
    refine (hcov.cons_of_none ?_ rfl).of_perm (perm_works_jobs_append s _)
    rfl
  | picksUp hcur hq =>
    refine .inl ⟨hc, hp, hcov.of_perm (.of_eq ?_)⟩
    simp [works, hcur, hq]
  | workerSteps hcur ha =>
    obtain ⟨hb, ht⟩ := perm_works_current hcur _ _
    rw [← hc] at ha
    obtain ⟨a, e, y, hy, hyc, hycl, hycov⟩ :=
      (hcov.of_perm hb.symm).advance hx (Work.calling_of_advance ha)
    exact .inr ⟨a, e, y, hy, hyc, hycl.trans hp, hycov.left.of_perm ht⟩
  | jobSteps hj ha =>
    obtain ⟨rest, hb, ht⟩ :=
      perm_works_jobs hj (Work.passage_of_advance ha).1.number_eq.1 hd _
    rw [← hc] at ha
    obtain ⟨a, e, y, hy, hyc, hycl, hycov⟩ :=
      (hcov.of_perm hb.symm).advance hx (Work.calling_of_advance ha)
    exact .inr ⟨a, e, y, hy, hyc, hycl.trans hp, hycov.left.of_perm ht⟩

/-- The calls of a session are those of an exchange, whatever its moves are. -/
theorem exchange_of_run {server : Server} (h : server.session.Run events s) :
    ∃ history x, (Exchange.ofConnection server.session.connection).Run history x ∧ s.Shows x := by
  induction h with
  | start => exact ⟨[], _, .start, rfl, rfl, List.nodup_nil, by simp [Server.session, works]⟩
  | next m hrun hm ih =>
    obtain ⟨history, x, hx, hs⟩ := ih
    have hsound := hx.sound (Exchange.sound_ofConnection _)
    rcases hs.next hsound (accounts_of_run hrun).nodup (change_of_move hm) with
      ht | ⟨a, e, y, hy, ht⟩
    · exact ⟨history, x, hx, ht⟩
    · exact ⟨_, y, .next a hx hy, ht⟩

/-- When the worker finishes what is left, no callback waits for the client. -/
theorem isSome_advance_of_draining {server : Server} (h : server.session.Run events s)
    (hp : s.phase.toClosing = .finished) {w : Work} (hw : w ∈ s.works)
    (hc : w.call?.isSome = true) : (w.advance s.connection).isSome = true := by
  obtain ⟨history, x, hx, hs⟩ := exchange_of_run h
  have hsound := hx.sound (Exchange.sound_ofConnection _)
  cases hst : w.stage with
  | calling n stage method params f =>
    have hn := hs.covers.under_way w hw n stage method params f hst
    have hstep := hsound.isSome_advance (hs.closing_eq.trans hp) hn rfl
    simp only [Exchange.step, Exchange.advance, hn, Option.isSome_map, hs.connection_eq] at hstep
    simp only [Work.advance, hst, Work.call, Option.isSome_map]
    obtain ⟨⟨e, next, c'⟩, he⟩ := Option.isSome_iff_exists.1 hstep
    -- In the session the callback sends, in the exchange the call does.
    obtain ⟨e', he'⟩ := CallStage.step_sender he (.callback w.number)
    rw [he']
    rfl
  | _ => simp [Work.call?, hst] at hc

end Session

end LanguageServer
