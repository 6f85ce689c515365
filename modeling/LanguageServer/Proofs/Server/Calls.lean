import LanguageServer.Server.Work
import Mathlib.Data.List.Nodup

/-!
# The steps of a call

`CallStage.Passage` says once what a step of a request to the client does to the table of calls, and
`CallStage.passage_of_step` that these are all steps.  The lemmas before it say which calls the
operations on the table list, and when two calls have one identifier.  `Closing` names the steps by
which the end of a connection is made known to them.
-/

namespace LanguageServer

namespace Calls

/-- Calls have different identifiers as long as there are fewer than there are identifiers. -/
theorem idOf_inj {m n : Nat} (hm : m < UInt32.size) (hn : n < UInt32.size)
    (h : idOf m = idOf n) : m = n := by
  have hsize : UInt32.size = 4294967296 := rfl
  simp only [idOf, IntOrString.int.injEq] at h
  -- Identifiers wrap around to negative numbers, but as words of 32 bits they do not repeat.
  have hb : (Int32.ofNat (m + 1)).toBitVec.toNat = (Int32.ofNat (n + 1)).toBitVec.toNat := by rw [h]
  simp only [Int32.toBitVec_ofNat', BitVec.toNat_ofNat] at hb
  omega

/-- Listing a call adds its entry only. -/
theorem mem_pending_enlist {c : Calls} {n : Nat} {p : Id × Nat} (h : p ∈ (c.enlist n).pending) :
    p = (idOf n, n) ∨ p ∈ c.pending := by
  rcases List.mem_cons.1 h with h | h
  · exact .inl h
  · exact .inr (List.mem_filter.1 h).1

/-- What is left after a call was taken off the list was listed before under another identifier. -/
theorem mem_pending_delist {c : Calls} {n : Nat} {p : Id × Nat} :
    p ∈ (c.delist n).pending ↔ p ∈ c.pending ∧ p.1 ≠ idOf n := by
  simp [delist, release]

/-- A call waits as long as it is in the table. -/
theorem isWaiting_iff {c : Calls} {n : Nat} : c.isWaiting n = true ↔ ∃ p ∈ c.pending, p.2 = n := by
  simp [isWaiting]

/-- A response is handed to the call that is listed under its identifier; others change nothing. -/
theorem complete_cases (c : Calls) (r : ResponseMessage) :
    (c.complete r = c ∧ ∀ p ∈ c.pending, r.id ≠ some p.1) ∨
    ∃ p ∈ c.pending, r.id = some p.1 ∧
      c.complete r = { c.release p.1 with answers := (p.2, r) :: c.answers } := by
  cases hid : r.id with
  | none => exact .inl ⟨by simp [complete, hid], by simp⟩
  | some id =>
    -- The first call under the identifier is the one that is completed.
    cases hf : c.pending.find? (·.1 == id) with
    | none =>
      refine .inl ⟨by simp [complete, hid, waiting?, hf], fun p hp he => ?_⟩
      have := List.find?_eq_none.1 hf p hp
      simp [Option.some.inj he] at this
    | some p =>
      have hp : p.1 = id := by simpa using List.find?_some hf
      exact .inr ⟨p, List.mem_of_find?_eq_some hf, by rw [hp],
        by simp [complete, hid, waiting?, hf, hp]⟩

/-- A response takes no number. -/
theorem complete_taken (c : Calls) (r : ResponseMessage) : (c.complete r).taken = c.taken := by
  rcases c.complete_cases r with ⟨he, -⟩ | ⟨p, -, -, he⟩ <;> rw [he]
  rfl

/-- A response does not open or close the table. -/
theorem complete_closed (c : Calls) (r : ResponseMessage) : (c.complete r).closed = c.closed := by
  rcases c.complete_cases r with ⟨he, -⟩ | ⟨p, -, -, he⟩ <;> rw [he]
  rfl

/-- A response lists no call. -/
theorem mem_pending_of_complete {c : Calls} {r : ResponseMessage} {p : Id × Nat}
    (h : p ∈ (c.complete r).pending) : p ∈ c.pending := by
  rcases c.complete_cases r with ⟨he, -⟩ | ⟨q, -, -, he⟩ <;> rw [he] at h
  · exact h
  · exact (List.mem_filter.1 h).1

/-- A response is handed to a call that is listed, if at all. -/
theorem mem_answers_of_complete {c : Calls} {r : ResponseMessage} {p : Nat × ResponseMessage}
    (h : p ∈ (c.complete r).answers) :
    p ∈ c.answers ∨ p.2 = r ∧ ∃ q ∈ c.pending, q.2 = p.1 := by
  rcases c.complete_cases r with ⟨he, -⟩ | ⟨q, hq, -, he⟩ <;> rw [he] at h
  · exact .inl h
  · rcases List.mem_cons.1 h with rfl | h
    · exact .inr ⟨rfl, q, hq, rfl⟩
    · exact .inl h

/-- A call has no answer when none was kept for it. -/
theorem answer?_eq_none {c : Calls} {n : Nat} :
    c.answer? n = none ↔ ∀ p ∈ c.answers, p.1 ≠ n := by
  simp [answer?]

/-- The answer of a call was kept for it. -/
theorem mem_answers_of_answer? {c : Calls} {n : Nat} {r : ResponseMessage}
    (h : c.answer? n = some r) : (n, r) ∈ c.answers := by
  obtain ⟨p, hp, rfl⟩ := Option.map_eq_some_iff.1 h
  have hn : p.1 = n := by simpa using List.find?_some hp
  rw [← hn]
  exact List.mem_of_find?_eq_some hp

/-! ### Identifiers differ -/

variable {c : Calls} {id : Id} {call : Nat} {r : ResponseMessage}

/-- Freeing an identifier leaves the others different. -/
theorem nodup_release (h : (c.pending.map (·.1)).Nodup) (id : Id) :
    ((c.release id).pending.map (·.1)).Nodup :=
  h.sublist (List.filter_sublist.map _)

/-- A call that is listed takes the place of any other with its identifier. -/
theorem nodup_enlist (h : (c.pending.map (·.1)).Nodup) (call : Nat) :
    ((c.enlist call).pending.map (·.1)).Nodup := by
  refine List.nodup_cons.2 ⟨fun hm => ?_, nodup_release h _⟩
  obtain ⟨p, hp, he⟩ := List.mem_map.1 hm
  simpa [he] using (List.mem_filter.1 hp).2

/-- A response frees at most one identifier. -/
theorem nodup_complete (h : (c.pending.map (·.1)).Nodup) (r : ResponseMessage) :
    ((c.complete r).pending.map (·.1)).Nodup := by
  rcases c.complete_cases r with ⟨he, -⟩ | ⟨p, -, -, he⟩ <;> rw [he]
  · exact h
  · exact nodup_release h p.1

/-- The call that waits under the identifier of a response gets it, and the identifier is free. -/
theorem complete_of_mem (hd : (c.pending.map (·.1)).Nodup) (hid : r.id = some id)
    (hp : (id, call) ∈ c.pending) :
    (∀ p, p ∈ (c.complete r).pending ↔ p ∈ c.pending ∧ p.1 ≠ id) ∧
      (c.complete r).answer? call = some r := by
  rcases c.complete_cases r with ⟨-, hn⟩ | ⟨q, hq, hqid, he⟩
  · exact absurd hid (hn _ hp)
  · have hqid : q.1 = id := Option.some.inj (hqid.symm.trans hid)
    have hqc : q = (id, call) := List.inj_on_of_nodup_map hd hq hp hqid
    subst hqc
    rw [he]
    exact ⟨fun p => by simp [release], by simp [answer?]⟩

end Calls

/-- What a step of a call does: the event, the stage or the outcome that comes of it, and the table
afterwards.  The message is the request of the call. -/
inductive CallStage.Passage (c : Calls) (sender : Sender) (n : Nat) (request : RpcMessage) :
    CallStage → Event → CallStep → Calls → Prop
  | lists : Passage c sender n request .numbered .quiet (.goesOn .enlisted) (c.enlist n)
  /-- The call sees that the client can no longer answer. -/
  | turnsBack : c.closed = true →
    Passage c sender n request .enlisted .quiet (.goesOn .refused) c
  | passes : c.closed = false → Passage c sender n request .enlisted .quiet (.goesOn .unsent) c
  | givesUp {text : String} :
    Passage c sender n request .refused .quiet (.yields (.error (.connection text))) (c.delist n)
  | sends : Passage c sender n request .unsent (.queued sender request) (.goesOn .waiting) c
  | fails : Passage c sender n request .unsent (.dropped sender request) (.goesOn .failed) c
  | withdraws {text : String} :
    Passage c sender n request .failed .quiet (.yields (.error (.connection text))) (c.delist n)
  | receives {r : ResponseMessage} : (n, r) ∈ c.answers →
    Passage c sender n request .waiting .quiet (.yields (Calls.resultOf r)) c
  /-- Nothing can be handed to the call any more. -/
  | despairs {text : String} : c.answer? n = none → c.isWaiting n = false →
    Passage c sender n request .waiting .quiet (.yields (.error (.connection text))) c

/-- Every step of a call is a passage. -/
theorem CallStage.passage_of_step {c c' : Connection} {sender : Sender} {n : Nat} {method : String}
    {params : LspAny} {stage : CallStage} {event : Event} {next : CallStep}
    (h : stage.step c sender n method params = some (event, next, c')) :
    stage.Passage c.calls sender n (.ofRequest (Calls.idOf n) method params.asParams) event next
      c'.calls := by
  cases stage with
  | numbered =>
    simp only [step, Option.some.injEq, Prod.mk.injEq] at h
    obtain ⟨rfl, rfl, rfl⟩ := h
    exact .lists
  | enlisted =>
    simp only [step, Option.some.injEq, Prod.mk.injEq] at h
    obtain ⟨rfl, rfl, rfl⟩ := h
    cases hc : c.calls.closed with
    | true => exact .turnsBack hc
    | false => exact .passes hc
  | refused =>
    simp only [step, Option.some.injEq, Prod.mk.injEq] at h
    obtain ⟨rfl, rfl, rfl⟩ := h
    exact .givesUp
  | unsent =>
    simp only [step, Connection.send, Option.some.injEq, Prod.mk.injEq] at h
    obtain ⟨rfl, rfl, rfl⟩ := h
    cases c.writing with
    | true => exact .sends
    | false => exact .fails
  | failed =>
    simp only [step, Option.some.injEq, Prod.mk.injEq] at h
    obtain ⟨rfl, rfl, rfl⟩ := h
    exact .withdraws
  | waiting =>
    obtain ⟨outcome, ho, he⟩ := Option.map_eq_some_iff.1 h
    simp only [Prod.mk.injEq] at he
    obtain ⟨rfl, rfl, rfl⟩ := he
    simp only [Calls.outcome?] at ho
    split at ho
    · rename_i r hr
      rw [← Option.some.inj ho]
      -- An answer was kept for it.
      exact .receives (Calls.mem_answers_of_answer? hr)
    · rename_i hr
      split at ho
      · simp at ho
      · rename_i hw
        rw [← Option.some.inj ho]
        exact .despairs hr (by simpa using hw)

/-- How far the closing of a connection is. -/
inductive Closing where
  | idle
  /-- Calls are refused from now on. -/
  | closed
  /-- The requests in flight are given up. -/
  | cancelled
  /-- The calls that waited are given up. -/
  | finished
deriving DecidableEq

/-- Whether a call has a place on the list, as long as it is not taken off. -/
def CallStep.isListed : CallStep → Bool
  | .goesOn .numbered => false
  | .goesOn _ => true
  | .yields _ => false

/-- Whether a call is listed but not on its way to be sent. -/
def CallStep.isEarly : CallStep → Bool
  | .goesOn .enlisted => true
  | .goesOn .refused => true
  | _ => false

/-- Whether the request of a call has not been queued. -/
def CallStep.isUnsent : CallStep → Bool
  | .goesOn .waiting => false
  | .goesOn _ => true
  | .yields _ => false

/-- The steps that are left of a call at most. -/
def CallStep.stepsLeft : CallStep → Nat
  | .goesOn .numbered => 4
  | .goesOn .enlisted => 3
  | .goesOn .unsent => 2
  | .goesOn _ => 1
  | .yields _ => 0

namespace CallStage.Passage

variable {c c' : Calls} {sender : Sender} {n : Nat} {request : RpcMessage} {stage : CallStage}
  {event : Event} {state : CallStep}

/-- A step of a call takes no number, keeps no answer, and neither opens nor closes the table. -/
theorem table_eq (h : stage.Passage c sender n request event state c') :
    c'.taken = c.taken ∧ c'.closed = c.closed ∧ c'.answers = c.answers := by
  cases h <;> exact ⟨rfl, rfl, rfl⟩

/-- The first step of a call lists the call, and nothing else is ever listed by its steps. -/
theorem mem_pending (h : stage.Passage c sender n request event state c') {p : Id × Nat}
    (hp : p ∈ c'.pending) : stage = .numbered ∧ p = (Calls.idOf n, n) ∨ p ∈ c.pending := by
  cases h with
  | lists =>
    rcases Calls.mem_pending_enlist hp with hp | hp
    · exact .inl ⟨rfl, hp⟩
    · exact .inr hp
  | givesUp | withdraws => exact .inr (Calls.mem_pending_delist.1 hp).1
  | turnsBack _ | passes _ | sends | fails | receives _ | despairs _ _ => exact .inr hp

/-- No step leads back to a call that was not listed. -/
theorem ne_numbered (h : stage.Passage c sender n request event state c') :
    state ≠ .goesOn .numbered := by
  cases h <;> simp

/-- A call returns what its response says, or that the connection is gone. -/
theorem outcome_cases (h : stage.Passage c sender n request event state c')
    {outcome : Outcome LspAny} (hs : state = .yields outcome) :
    (∃ text, outcome = .error (.connection text)) ∨
    ∃ r, (n, r) ∈ c.answers ∧ outcome = Calls.resultOf r := by
  cases h with
  | givesUp | withdraws | despairs _ _ => exact .inl ⟨_, (CallStep.yields.inj hs).symm⟩
  | receives hr => exact .inr ⟨_, hr, (CallStep.yields.inj hs).symm⟩
  | lists | turnsBack _ | passes _ | sends | fails => simp at hs

/-- A call that is listed after a step has not returned. -/
theorem isListed (h : stage.Passage c sender n request event state c')
    (hid : ∀ p ∈ c.pending, p.2 = n → p.1 = Calls.idOf n)
    (ha : ∀ r, (n, r) ∈ c.answers → ∀ p ∈ c.pending, p.2 ≠ n) {p : Id × Nat}
    (hp : p ∈ c'.pending) (hn : p.2 = n) : state.isListed = true := by
  cases h with
  | lists | turnsBack _ | passes _ | sends | fails => rfl
  | givesUp | withdraws =>
    -- Taking the call off the list frees its identifier, under which all its entries stand.
    obtain ⟨hp, hne⟩ := Calls.mem_pending_delist.1 hp
    exact absurd (hid p hp hn) hne
  | receives hr => exact absurd hn (ha _ hr p hp)
  | despairs _ hw =>
    rw [Calls.isWaiting_iff.2 ⟨p, hp, hn⟩] at hw
    exact absurd hw (by decide)

/-- Once the table is closed a listed call does not get on its way. -/
theorem isEarly (h : stage.Passage c sender n request event state c') (hc : c.closed = true)
    (he : ∀ p ∈ c.pending, p.2 = n → (CallStep.goesOn stage).isEarly = true)
    (hid : ∀ p ∈ c.pending, p.2 = n → p.1 = Calls.idOf n) {p : Id × Nat} (hp : p ∈ c'.pending)
    (hn : p.2 = n) : state.isEarly = true := by
  cases h with
  | lists | turnsBack _ => rfl
  | passes ho => simp [hc] at ho
  | givesUp =>
    obtain ⟨hp, hne⟩ := Calls.mem_pending_delist.1 hp
    exact absurd (hid p hp hn) hne
  | withdraws => exact absurd (he p (Calls.mem_pending_delist.1 hp).1 hn) (by decide)
  -- These stages are not early, so the call is not listed in them.
  | sends | fails | receives _ | despairs _ _ => exact absurd (he p hp hn) (by decide)

/-- A step of a call queues nothing but its request, and that when it has not been queued. -/
theorem event_cases (h : stage.Passage c sender n request event state c') :
    (event = .queued sender request ∧ (CallStep.goesOn stage).isUnsent = true ∧
      state.isUnsent = false) ∨
    ((event = .quiet ∨ event = .dropped sender request) ∧
      (state.isUnsent = true → (CallStep.goesOn stage).isUnsent = true)) := by
  cases h with
  | sends => exact .inl ⟨rfl, rfl, rfl⟩
  | fails => exact .inr ⟨.inr rfl, fun _ => rfl⟩
  | lists | turnsBack _ | passes _ => exact .inr ⟨.inl rfl, fun _ => rfl⟩
  | givesUp | withdraws | receives _ | despairs _ _ => exact .inr ⟨.inl rfl, nofun⟩

/-- Each step of a call brings it closer to its end. -/
theorem stepsLeft_lt (h : stage.Passage c sender n request event state c') :
    state.stepsLeft < (CallStep.goesOn stage).stepsLeft := by
  cases h <;> simp [CallStep.stepsLeft]

/-- A call that nothing can be handed to any more stays so, or returns that the connection is
gone. -/
theorem abandoned (h : stage.Passage c sender n request event state c') (hc : c.closed = true)
    (hs : stage = .numbered ∨ (CallStep.goesOn stage).isEarly = true ∨
      (∀ p ∈ c.pending, p.2 ≠ n) ∧ ∀ p ∈ c.answers, p.1 ≠ n) :
    state.isEarly = true ∨ (∃ text, state = .yields (.error (.connection text))) ∨
      ((∀ p ∈ c'.pending, p.2 ≠ n) ∧ ∀ p ∈ c'.answers, p.1 ≠ n) ∧
        ∃ next, state = .goesOn next := by
  cases h with
  | lists | turnsBack _ => exact .inl rfl
  -- A closed table lets no call pass.
  | passes ho => simp [hc] at ho
  | givesUp | withdraws | despairs _ _ => exact .inr (.inl ⟨_, rfl⟩)
  | sends | fails =>
    rcases hs with hs | hs | hs
    · simp at hs
    · simp [CallStep.isEarly] at hs
    · exact .inr (.inr ⟨hs, _, rfl⟩)
  | receives hr =>
    rcases hs with hs | hs | hs
    · simp at hs
    · simp [CallStep.isEarly] at hs
    · -- No answer was kept for a call that nothing is left of.
      exact absurd rfl (hs.2 _ hr)

end CallStage.Passage

end LanguageServer
