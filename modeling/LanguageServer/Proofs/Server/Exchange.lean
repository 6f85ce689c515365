import LanguageServer.Proofs.Server.Calls

/-!
# Requests to the client

An `Exchange` is a connection on which any number of callbacks have requests to the client under
way, while responses come in and the connection is closed.  `Exchange.faithful_of_run` says what
holds whatever the order of the steps: a call returns what its own response says and nothing else,
and once the connection is closed every call returns, with an error unless its response had come
before.

What carries this is the order of the steps of a call against those of the closing: a call lists
itself before it looks whether the connection is closed, and the closing says so before it clears
the list.  So a call that the closing has not cleared sees that the connection is closed.
-/

namespace LanguageServer

/-- A request to the client that a callback makes. -/
structure Call where
  number : Nat
  method : String
  params : LspAny
  /-- The stage that it is at, or what it has returned. -/
  state : CallStep

namespace Call

/-- The identifier of the request. -/
def id (call : Call) : Id := Calls.idOf call.number

/-- The request that is sent to the client. -/
def request (call : Call) : RpcMessage := .ofRequest call.id call.method call.params.asParams

/-- Whether the callback goes on. -/
def hasReturned (call : Call) : Bool :=
  match call.state with
  | .yields _ => true
  | .goesOn _ => false

end Call

/-- A connection with the calls that were made on it, by number. -/
structure Exchange where
  connection : Connection
  calls : List Call := []
  closing : Closing := .idle

namespace Exchange

/-- What can happen next. -/
inductive Act where
  /-- A callback makes a call. -/
  | call (method : String) (params : LspAny)
  /-- A call takes a step. -/
  | advance (number : Nat)
  /-- A response is handed over.  The call is taken off the list and gets its response in one step:
  in between nobody but the one who hands it over can reach the call. -/
  | complete (r : ResponseMessage)
  /-- The closing takes a step. -/
  | close
  /-- Anything else becomes of the connection. -/
  | other (connection : Connection)

/-- The table of the calls that wait. -/
def table (x : Exchange) : Calls := x.connection.calls

/-- The same with another table. -/
def withTable (table : Calls) (x : Exchange) : Exchange :=
  { x with connection := { x.connection with calls := table } }

/-- A connection on which no calls have been made. -/
def ofConnection (c : Connection) : Exchange := { connection := { c with calls := {} } }

/-- A step of a call; there is none when it waits, or has returned. -/
def advance (n : Nat) (x : Exchange) : Option (Event × Exchange) :=
  match x.calls[n]? with
  | none => none
  | some call =>
    match call.state with
    | .yields _ => none
    | .goesOn stage =>
      (stage.step x.connection (.callback call.number) call.number call.method call.params).map
        fun (event, state, connection) =>
          (event, { x with connection, calls := x.calls.set n { call with state } })

/-- A step of the closing, which closes the table, gives up the requests in flight and clears the
table. -/
def close (x : Exchange) : Option (Event × Exchange) :=
  match x.closing with
  | .idle => some (.quiet, { x.withTable x.table.close with closing := .closed })
  | .closed =>
    some (.quiet, { x with connection := x.connection.cancelAll, closing := .cancelled })
  | .cancelled => some (.quiet, { x.withTable x.table.clear with closing := .finished })
  | .finished => none

/-- Let something happen. -/
def step (x : Exchange) : Act → Option (Event × Exchange)
  | .call method params =>
    let (number, table) := x.table.take
    some (.quiet, { x.withTable table with
      calls := x.calls ++ [⟨number, method, params, .goesOn .numbered⟩] })
  | .advance n => x.advance n
  | .complete r => some (.quiet, x.withTable (x.table.complete r))
  | .close => x.close
  | .other c => some (.quiet, { x with connection := { c with calls := x.table } })

/-- What has happened on the way to a later state. -/
inductive Run (x : Exchange) : List (Act × Event) → Exchange → Prop
  | start : Run x [] x
  | next {history : List (Act × Event)} {y z : Exchange} {event : Event} (a : Act) :
      Run x history y → y.step a = some (event, z) → Run x (history ++ [(a, event)]) z

/-! ## What can be seen of a run -/

/-- The message that a call has queued in an event. -/
def requestOf? (n : Nat) : Event → Option RpcMessage
  | .queued (.callback k) m => if k = n then some m else none
  | _ => none

/-- The messages that a call has queued, in order. -/
def requestsOf (n : Nat) (history : List (Act × Event)) : List RpcMessage :=
  history.filterMap fun p => requestOf? n p.2

/-- The response that is handed over. -/
def Act.response? : Act → Option ResponseMessage
  | .complete r => some r
  | _ => none

/-- The responses that were handed over, in order. -/
def handedOver (history : List (Act × Event)) : List ResponseMessage :=
  history.filterMap fun p => p.1.response?

/-- Whether a call takes a step. -/
def Act.isStepOf (n : Nat) : Act → Bool
  | .advance k => k == n
  | _ => false

/-- How many steps a call has taken. -/
def stepsOf (n : Nat) (history : List (Act × Event)) : Nat :=
  history.countP fun p => p.1.isStepOf n

/-- Whether a response would take a call off the list. -/
def Releases (x : Exchange) (r : ResponseMessage) (n : Nat) : Prop :=
  x.table.isWaiting n = true ∧ (x.table.complete r).isWaiting n = false

/-- What is promised of the calls on a connection: of a run that comes to `x` and goes on to `y`. -/
structure Faithful (before after : List (Act × Event)) (x y : Exchange) : Prop where
  /-- Different calls have different identifiers. -/
  distinct : ∀ (m n : Nat) (a b : Call), y.calls[m]? = some a → y.calls[n]? = some b →
    a.id = b.id → m = n
  /-- A call queues nothing but its request, once. -/
  requests : ∀ n call, y.calls[n]? = some call →
    requestsOf n (before ++ after) = [] ∨ requestsOf n (before ++ after) = [call.request]
  /-- A call returns what a response with its identifier says, or that the connection is gone. -/
  outcomes : ∀ (n : Nat) (call : Call) (outcome : Outcome LspAny), y.calls[n]? = some call →
    call.state = .yields outcome →
    (∃ text, outcome = .error (.connection text)) ∨
    ∃ r ∈ handedOver (before ++ after), r.id = some call.id ∧ outcome = Calls.resultOf r
  /-- A response releases no call but the one with its identifier. -/
  releases : ∀ r n, y.Releases r n →
    (∃ call, y.calls[n]? = some call ∧ r.id = some call.id) ∧ ∀ m, y.Releases r m → m = n
  /-- A response that is handed over while its call is listed takes it off the list, and a call that
  waits returns next what the response says. -/
  answers : ∀ r n call, y.calls[n]? = some call → y.table.isWaiting n = true →
    r.id = some call.id → y.Releases r n ∧
      ∃ z, y.step (.complete r) = some (.quiet, z) ∧ z.table.answer? n = some r ∧
        (call.state = .goesOn .waiting → ∃ u, z.step (.advance n) = some (.quiet, u) ∧
          u.calls[n]? = some { call with state := .yields (Calls.resultOf r) })
  /-- A response that no call waits for changes nothing. -/
  unmatched : ∀ r, (∀ p ∈ y.table.pending, r.id ≠ some p.1) →
    y.step (.complete r) = some (.quiet, y)
  /-- When all calls have returned none is listed. -/
  emptied : (∀ call ∈ y.calls, call.hasReturned = true) → y.table.pending = []
  /-- After the closing a call never waits, and it has returned after four of its steps. -/
  returns : x.closing = .finished → ∀ n call, y.calls[n]? = some call →
    (call.hasReturned = false → (y.step (.advance n)).isSome = true) ∧
    stepsOf n after + call.state.stepsLeft ≤ 4
  /-- A call without a response at the end of the closing, or that is made later, returns that the
  connection is gone. -/
  abandoned : x.closing = .finished → ∀ n call outcome, y.calls[n]? = some call →
    (x.calls.length ≤ n ∨ x.table.answer? n = none) → call.state = .yields outcome →
    ∃ text, outcome = .error (.connection text)
  /-- A call that has seen that the connection is closed sends no request. -/
  refused : ∀ n call, x.calls[n]? = some call → call.state = .goesOn .refused →
    requestsOf n (before ++ after) = []

/-! ## The list of calls -/

/-- A call that was made stays where it is when another one is made. -/
theorem getElem?_append_of_some {calls : List Call} {n : Nat} {new call : Call}
    (h : calls[n]? = some call) : (calls ++ [new])[n]? = some call := by
  rw [List.getElem?_append_left (List.getElem?_eq_some_iff.1 h).1, h]

/-- A call in a list to which one call was added. -/
theorem getElem?_append_cases {calls : List Call} {n : Nat} {new call : Call}
    (h : (calls ++ [new])[n]? = some call) :
    calls[n]? = some call ∨ n = calls.length ∧ call = new := by
  by_cases hl : n < calls.length
  · rw [List.getElem?_append_left hl] at h
    exact .inl h
  · rw [List.getElem?_append_right (by omega), List.getElem?_singleton] at h
    split at h
    · exact .inr ⟨by omega, (Option.some.inj h).symm⟩
    · simp at h

/-- The call that has got a new state. -/
theorem getElem?_set_of_some {calls : List Call} {n : Nat} {old new : Call}
    (h : calls[n]? = some old) : (calls.set n new)[n]? = some new :=
  List.getElem?_set_self (List.getElem?_eq_some_iff.1 h).1

/-- A call in a list in which one call has got a new state. -/
theorem getElem?_set_cases {calls : List Call} {m n : Nat} {old new call : Call}
    (hn : calls[n]? = some old) (h : (calls.set n new)[m]? = some call) :
    m = n ∧ call = new ∨ m ≠ n ∧ calls[m]? = some call := by
  by_cases hm : m = n
  · subst hm
    rw [getElem?_set_of_some hn] at h
    exact .inl ⟨rfl, (Option.some.inj h).symm⟩
  · rw [List.getElem?_set_ne (Ne.symm hm)] at h
    exact .inr ⟨hm, h⟩

/-! ## What a step can do -/

/-- What a step does to the calls, the table and the closing. -/
inductive Change (x : Exchange) : Act → Event → Exchange → Prop
  | calls {method : String} {params : LspAny} :
    Change x (.call method params) .quiet
      { x.withTable { x.table with taken := x.table.taken + 1 } with
        calls := x.calls ++ [⟨x.table.taken, method, params, .goesOn .numbered⟩] }
  | advances {n : Nat} {call : Call} {stage : CallStage} {event : Event} {state : CallStep}
      {connection : Connection} : x.calls[n]? = some call → call.state = .goesOn stage →
    stage.Passage x.table (.callback call.number) call.number call.request event state
      connection.calls →
    Change x (.advance n) event
      { x with connection, calls := x.calls.set n { call with state } }
  | completes {r : ResponseMessage} :
    Change x (.complete r) .quiet (x.withTable (x.table.complete r))
  | closes : x.closing = .idle →
    Change x .close .quiet { x.withTable x.table.close with closing := .closed }
  | cancels : x.closing = .closed →
    Change x .close .quiet
      { x with connection := x.connection.cancelAll, closing := .cancelled }
  | clears : x.closing = .cancelled →
    Change x .close .quiet { x.withTable x.table.clear with closing := .finished }
  | others {c : Connection} :
    Change x (.other c) .quiet { x with connection := { c with calls := x.table } }

variable {x y z : Exchange} {a : Act} {event : Event} {history before after : List (Act × Event)}

/-- Every step is a change. -/
theorem change_of_step (h : x.step a = some (event, y)) : x.Change a event y := by
  cases a with
  | call method params | complete r | other c =>
    simp only [step, Option.some.injEq, Prod.mk.injEq] at h
    obtain ⟨rfl, rfl⟩ := h
    constructor
  | close =>
    simp only [step, close] at h
    split at h
    · rename_i hc
      simp only [Option.some.injEq, Prod.mk.injEq] at h
      obtain ⟨rfl, rfl⟩ := h
      exact .closes hc
    · rename_i hc
      simp only [Option.some.injEq, Prod.mk.injEq] at h
      obtain ⟨rfl, rfl⟩ := h
      exact .cancels hc
    · rename_i hc
      simp only [Option.some.injEq, Prod.mk.injEq] at h
      obtain ⟨rfl, rfl⟩ := h
      exact .clears hc
    · simp at h
  | advance n =>
    simp only [step, advance] at h
    split at h
    · simp at h
    rename_i call hn
    split at h
    · simp at h
    rename_i stage hs
    obtain ⟨⟨e, state, connection⟩, hstep, he⟩ := Option.map_eq_some_iff.1 h
    simp only [Prod.mk.injEq] at he
    obtain ⟨rfl, rfl⟩ := he
    -- A call that is there and not over takes a step of its own.
    exact .advances hn hs (CallStage.passage_of_step hstep)

/-! ## The invariant -/

/-- The calls and the table fit together. -/
structure Sound (x : Exchange) : Prop where
  taken_eq : x.table.taken = x.calls.length
  number_eq : ∀ (n : Nat) (call : Call), x.calls[n]? = some call → call.number = n
  /-- What is listed is a call that has not returned, under its identifier. -/
  listed : ∀ p ∈ x.table.pending, p.1 = Calls.idOf p.2 ∧
    ∃ call, x.calls[p.2]? = some call ∧ call.state.isListed = true
  /-- A response is that to a call that was listed, and is no longer. -/
  answered : ∀ p ∈ x.table.answers, p.2.id = some (Calls.idOf p.1) ∧
    (∀ q ∈ x.table.pending, q.2 ≠ p.1) ∧
    ∃ call, x.calls[p.1]? = some call ∧ call.state ≠ .goesOn .numbered
  returned : ∀ (n : Nat) (call : Call) (outcome : Outcome LspAny), x.calls[n]? = some call →
    call.state = .yields outcome →
    (∃ text, outcome = .error (.connection text)) ∨
    ∃ r, (n, r) ∈ x.table.answers ∧ outcome = Calls.resultOf r
  closed : x.closing ≠ .idle → x.table.closed = true
  /-- After the closing no call is listed that is on its way. -/
  cleared : x.closing = .finished → ∀ p ∈ x.table.pending,
    ∃ call, x.calls[p.2]? = some call ∧ call.state.isEarly = true

/-- An exchange that begins is sound: there are no calls yet. -/
theorem sound_ofConnection (c : Connection) : (ofConnection c).Sound where
  taken_eq := rfl
  number_eq := by simp [ofConnection]
  listed := by simp [ofConnection, table]
  answered := by simp [ofConnection, table]
  returned := by simp [ofConnection]
  closed h := absurd rfl h
  cleared := by simp [ofConnection]

namespace Sound

/-- A step that leaves the calls and the table, but for the calls that are listed and for the
closing. -/
private theorem next_table (h : x.Sound) (hc : y.calls = x.calls)
    (ht : y.table.taken = x.table.taken) (ha : y.table.answers = x.table.answers)
    (hp : ∀ p ∈ y.table.pending, p ∈ x.table.pending)
    (hcl : y.closing ≠ .idle → y.table.closed = true)
    (hf : y.closing = .finished → x.closing = .finished ∨ y.table.pending = []) : y.Sound where
  taken_eq := by rw [ht, hc, h.taken_eq]
  number_eq := hc ▸ h.number_eq
  listed p hm := hc ▸ h.listed p (hp p hm)
  answered p hm := by
    obtain ⟨hid, hn, hs⟩ := h.answered p (ha ▸ hm)
    exact ⟨hid, fun q hq => hn q (hp q hq), hc ▸ hs⟩
  returned n call outcome hn hs := by
    rw [ha]
    exact h.returned n call outcome (hc ▸ hn) hs
  closed := hcl
  cleared he p hm := by
    -- It was cleared before, or it is empty now.
    rcases hf he with hf | hf
    · exact hc ▸ h.cleared hf p (hp p hm)
    · simp [hf] at hm

/-- A response is handed over. -/
private theorem next_completes (h : x.Sound) (r : ResponseMessage) :
    (x.withTable (x.table.complete r)).Sound := by
  rcases x.table.complete_cases r with ⟨he, -⟩ | ⟨p, hp, hid, he⟩
  · rwa [he]
  obtain ⟨hpid, call, hcall, hlisted⟩ := h.listed p hp
  have hsub : ∀ q ∈ (x.table.complete r).pending, q ∈ x.table.pending := fun q =>
    Calls.mem_pending_of_complete
  refine ⟨?taken_eq, h.number_eq, fun q hq => h.listed q (hsub q hq), fun q hq => ?answered,
    ?returned, ?closed, fun hf q hq => h.cleared hf q (hsub q hq)⟩
  case taken_eq =>
    exact (Calls.complete_taken _ _).trans h.taken_eq
  case answered =>
    change q ∈ (x.table.complete r).answers at hq
    rw [he] at hq
    rcases List.mem_cons.1 hq with rfl | hq
    · refine ⟨by rw [hid, hpid], fun o ho hn => ?_, call, hcall, ?_⟩
      · -- All entries of a call stand under its identifier, which was freed.
        change o ∈ (x.table.complete r).pending at ho
        have hoid := (h.listed o (hsub o ho)).1
        rw [he] at ho
        have hne : o.1 ≠ p.1 := by simpa using (List.mem_filter.1 ho).2
        exact hne (by rw [hoid, hpid, hn])
      · intro hs
        simp [hs, CallStep.isListed] at hlisted
    · obtain ⟨hqid, hqn, hqs⟩ := h.answered q hq
      exact ⟨hqid, fun o ho => hqn o (hsub o ho), hqs⟩
  case returned =>
    intro n call outcome hn hs
    rcases h.returned n call outcome hn hs with hr | ⟨r', hr', ho⟩
    · exact .inl hr
    · refine .inr ⟨r', ?_, ho⟩
      show _ ∈ (x.table.complete r).answers
      rw [he]
      exact List.mem_cons_of_mem _ hr'
  case closed =>
    exact fun hne => (Calls.complete_closed _ _).trans (h.closed hne)

/-- A call is made. -/
private theorem next_calls (h : x.Sound) (method : String) (params : LspAny) :
    Sound { x.withTable { x.table with taken := x.table.taken + 1 } with
      calls := x.calls ++ [⟨x.table.taken, method, params, .goesOn .numbered⟩] } := by
  refine ⟨?taken_eq, ?number_eq, fun p hp => ?listed, fun p hp => ?answered, ?returned, h.closed,
    fun hf p hp => ?cleared⟩
  case taken_eq =>
    -- The new call takes the next number, and nothing else is known of it.
    show x.table.taken + 1 = _
    simp [h.taken_eq]
  case number_eq =>
    intro n call hn
    rcases getElem?_append_cases hn with hn | ⟨rfl, rfl⟩
    · exact h.number_eq n call hn
    · exact h.taken_eq
  case listed =>
    obtain ⟨hid, call, hn, hs⟩ := h.listed p hp
    exact ⟨hid, call, getElem?_append_of_some hn, hs⟩
  case answered =>
    obtain ⟨hid, hne, call, hn, hs⟩ := h.answered p hp
    exact ⟨hid, hne, call, getElem?_append_of_some hn, hs⟩
  case returned =>
    intro n call outcome hn hs
    rcases getElem?_append_cases hn with hn | ⟨-, rfl⟩
    · exact h.returned n call outcome hn hs
    · simp at hs
  case cleared =>
    obtain ⟨call, hn, hs⟩ := h.cleared hf p hp
    exact ⟨call, getElem?_append_of_some hn, hs⟩

section Advance

variable {n : Nat} {call : Call} {stage : CallStage} {sender : Sender} {request : RpcMessage}
  {state : CallStep} {connection : Connection}

/-- Only the call that takes a step can be new on the list. -/
private theorem mem_pending_of_ne
    (hp : stage.Passage x.table sender n request event state connection.calls) {p : Id × Nat}
    (hpp : p ∈ connection.calls.pending) (hpn : p.2 ≠ n) : p ∈ x.table.pending := by
  rcases hp.mem_pending hpp with ⟨-, rfl⟩ | hpp
  · exact absurd rfl hpn
  · exact hpp

/-- A call waits under the identifier that its number gives it. -/
private theorem idOf_of_mem_pending (h : x.Sound) {p : Id × Nat} (hpp : p ∈ x.table.pending)
    (hpn : p.2 = n) : p.1 = Calls.idOf n :=
  hpn ▸ (h.listed p hpp).1

/-- After a step of a call the table lists calls that are there, under their identifiers. -/
private theorem listed_advance (h : x.Sound) (hn : x.calls[n]? = some call)
    (hp : stage.Passage x.table sender n request event state connection.calls) :
    ∀ p ∈ connection.calls.pending, p.1 = Calls.idOf p.2 ∧
      ∃ c, (x.calls.set n { call with state })[p.2]? = some c ∧ c.state.isListed = true := by
  intro p hpp
  by_cases hpn : p.2 = n
  · -- A call with a response was taken off the list, so this one has none.
    have hans : ∀ r, (n, r) ∈ x.table.answers → ∀ q ∈ x.table.pending, q.2 ≠ n := fun r hr =>
      (h.answered _ hr).2.1
    have hl := hp.isListed (fun q => h.idOf_of_mem_pending) hans hpp hpn
    rw [hpn]
    refine ⟨?_, _, getElem?_set_of_some hn, hl⟩
    rcases hp.mem_pending hpp with ⟨-, rfl⟩ | hpp
    · rfl
    · exact h.idOf_of_mem_pending hpp hpn
  · rw [List.getElem?_set_ne (Ne.symm hpn)]
    exact h.listed p (mem_pending_of_ne hp hpp hpn)

/-- After a step of a call an answer is kept only for calls that no longer wait. -/
private theorem answered_advance (h : x.Sound) (hn : x.calls[n]? = some call)
    (hs : call.state = .goesOn stage)
    (hp : stage.Passage x.table sender n request event state connection.calls) :
    ∀ p ∈ connection.calls.answers, p.2.id = some (Calls.idOf p.1) ∧
      (∀ q ∈ connection.calls.pending, q.2 ≠ p.1) ∧
      ∃ c, (x.calls.set n { call with state })[p.1]? = some c ∧
        c.state ≠ .goesOn .numbered := by
  intro p hpp
  rw [hp.table_eq.2.2] at hpp
  obtain ⟨hpid, hpn, c, hc, hcs⟩ := h.answered p hpp
  refine ⟨hpid, fun q hq hqn => ?_, ?_⟩
  · rcases hp.mem_pending hq with ⟨rfl, rfl⟩ | hq
    · -- A call with a response has been listed already.
      rw [← hqn, hn] at hc
      exact hcs (Option.some.inj hc ▸ hs)
    · exact hpn q hq hqn
  · by_cases hpn' : p.1 = n
    · rw [hpn']
      exact ⟨_, getElem?_set_of_some hn, hp.ne_numbered⟩
    · exact ⟨c, (List.getElem?_set_ne (Ne.symm hpn')).trans hc, hcs⟩

/-- Once the table was closed and cleared, only calls that are listed too late are in it. -/
private theorem cleared_advance (h : x.Sound) (hf : x.closing = .finished)
    (hn : x.calls[n]? = some call) (hs : call.state = .goesOn stage)
    (hp : stage.Passage x.table sender n request event state connection.calls) :
    ∀ p ∈ connection.calls.pending,
      ∃ c, (x.calls.set n { call with state })[p.2]? = some c ∧ c.state.isEarly = true := by
  intro p hpp
  have hc : x.table.closed = true := h.closed (by simp [hf])
  by_cases hpn : p.2 = n
  · rw [hpn]
    -- The call that takes the step is listed again only if it comes too late.
    refine ⟨_, getElem?_set_of_some hn,
      hp.isEarly hc (fun q hq hqn => ?_) (fun q => h.idOf_of_mem_pending) hpp hpn⟩
    obtain ⟨c, hcq, he⟩ := h.cleared hf q hq
    rw [hqn, hn] at hcq
    rwa [← hs, Option.some.inj hcq]
  · -- The other ones were listed before.
    obtain ⟨c, hcp, he⟩ := h.cleared hf p (mem_pending_of_ne hp hpp hpn)
    exact ⟨c, (List.getElem?_set_ne (Ne.symm hpn)).trans hcp, he⟩

/-- A call takes a step. -/
private theorem next_advances (h : x.Sound) (hn : x.calls[n]? = some call)
    (hs : call.state = .goesOn stage)
    (hp : stage.Passage x.table sender n request event state connection.calls) :
    Sound { x with connection, calls := x.calls.set n { call with state } } := by
  obtain ⟨htaken, hclosed, hanswers⟩ := hp.table_eq
  refine ⟨?taken_eq, ?number_eq, h.listed_advance hn hp, h.answered_advance hn hs hp, ?returned,
    ?closed, fun hf => h.cleared_advance hf hn hs hp⟩
  case taken_eq =>
    show connection.calls.taken = _
    rw [htaken, h.taken_eq, List.length_set]
  case number_eq =>
    intro m c hm
    rcases getElem?_set_cases hn hm with ⟨rfl, rfl⟩ | ⟨-, hm⟩
    · exact h.number_eq m call hn
    · exact h.number_eq m c hm
  case returned =>
    intro m c outcome hm hst
    show _ ∨ ∃ r, (m, r) ∈ connection.calls.answers ∧ _
    rw [hanswers]
    rcases getElem?_set_cases hn hm with ⟨rfl, rfl⟩ | ⟨-, hm⟩
    · -- This very call has ended, with its answer or without the connection.
      exact hp.outcome_cases hst
    · exact h.returned m c outcome hm hst
  case closed =>
    intro hne
    show connection.calls.closed = true
    rw [hclosed]
    exact h.closed hne

end Advance

/-- The invariant is kept by every step. -/
theorem next (h : x.Sound) (hc : x.Change a event y) : y.Sound := by
  cases hc with
  | calls => exact h.next_calls _ _
  | advances hn hs hp =>
    rw [h.number_eq _ _ hn] at hp
    exact h.next_advances hn hs hp
  | completes => exact h.next_completes _
  -- A table that is closed keeps what it had until it is cancelled and cleared.
  | closes hi =>
    exact h.next_table rfl rfl rfl (fun _ => id) (fun _ => rfl) nofun
  | cancels hi =>
    exact h.next_table rfl rfl rfl (fun _ => id) (fun _ => h.closed (by simp [hi])) nofun
  | clears hi =>
    exact h.next_table rfl rfl rfl nofun (fun _ => h.closed (by simp [hi])) fun _ => .inr rfl
  | others => exact h.next_table rfl rfl rfl (fun _ => id) h.closed .inl

end Sound

/-- A run keeps an exchange sound. -/
theorem Run.sound (h : x.Run history y) (hx : x.Sound) : y.Sound := by
  induction h with
  | start => exact hx
  | next a _ hs ih => exact ih.next (change_of_step hs)

/-! ## What is recorded of a run -/

/-- One more event sends at most one more request. -/
theorem requestsOf_append (n : Nat) (history : List (Act × Event)) (a : Act) (event : Event) :
    requestsOf n (history ++ [(a, event)]) =
      requestsOf n history ++ (requestOf? n event).toList := by
  cases h : requestOf? n event <;> simp [requestsOf, h]

/-- The calls and the table agree with what has happened. -/
structure Recorded (history : List (Act × Event)) (x : Exchange) : Prop where
  handed : ∀ p ∈ x.table.answers, p.2 ∈ handedOver history
  /-- Before a call is sent, or made, it has queued nothing. -/
  unsent : ∀ n, (∀ call, x.calls[n]? = some call → call.state.isUnsent = true) →
    requestsOf n history = []
  sent : ∀ (n : Nat) (call : Call), x.calls[n]? = some call →
    requestsOf n history = [] ∨ requestsOf n history = [call.request]

namespace Recorded

/-- A step that leaves the calls. -/
private theorem next_quiet (h : x.Recorded history) (hc : y.calls = x.calls)
    (ha : ∀ p ∈ y.table.answers, p ∈ x.table.answers ∨ a.response? = some p.2) :
    y.Recorded (history ++ [(a, .quiet)]) where
  handed p hp := by
    rw [handedOver, List.filterMap_append, List.mem_append]
    -- An answer of before, or the one that is handed over now.
    rcases ha p hp with hp | hp
    · exact .inl (h.handed p hp)
    · exact .inr (by simp [hp])
  unsent n hn := by
    rw [requestsOf_append, h.unsent n (hc ▸ hn)]
    rfl
  sent n call hn := by
    rw [requestsOf_append]
    simpa [requestOf?] using h.sent n call (hc ▸ hn)

/-- A call takes a step. -/
private theorem next_advances (h : x.Recorded history) {n : Nat} {call : Call} {stage : CallStage}
    {state : CallStep} {connection : Connection} (hn : x.calls[n]? = some call)
    (hs : call.state = .goesOn stage)
    (hp : stage.Passage x.table (.callback n) n call.request event state connection.calls) :
    Recorded (history ++ [(.advance n, event)])
      { x with connection, calls := x.calls.set n { call with state } } := by
  have hself : (x.calls.set n { call with state })[n]? = some { call with state } :=
    getElem?_set_of_some hn
  have hother : ∀ {m : Nat}, m ≠ n → (x.calls.set n { call with state })[m]? = x.calls[m]? :=
    fun hm => List.getElem?_set_ne hm.symm
  have hquiet : ∀ {m : Nat}, m ≠ n → requestOf? m event = none := by
    intro m hm
    rcases hp.event_cases with ⟨rfl, -⟩ | ⟨rfl | rfl, -⟩
    · simp [requestOf?, hm.symm]
    · rfl
    · rfl
  -- What the call has queued depends on no other call.
  have hown : call.state.isUnsent = true → requestsOf n history = [] := fun hu =>
    h.unsent n fun c hc => by rwa [← Option.some.inj (hn.symm.trans hc)]
  refine ⟨fun p hpp => ?_, fun m hm => ?_, fun m c hm => ?_⟩
  · change p ∈ connection.calls.answers at hpp
    rw [hp.table_eq.2.2] at hpp
    rw [handedOver, List.filterMap_append, List.mem_append]
    exact .inl (h.handed p hpp)
  · rw [requestsOf_append]
    by_cases hmn : m = n
    · subst hmn
      have hu := hm _ hself
      rcases hp.event_cases with ⟨-, -, hq⟩ | ⟨he, hu'⟩
      · -- A call that has queued its request is no longer unsent.
        exact absurd (hu.symm.trans hq) (by decide)
      · rw [hown (hs ▸ hu' hu)]
        rcases he with rfl | rfl <;> rfl
    · rw [hquiet hmn, h.unsent m fun c hc => hm c ((hother hmn).trans hc)]
      rfl
  · rw [requestsOf_append]
    rcases getElem?_set_cases hn hm with ⟨rfl, rfl⟩ | ⟨hmn, hm⟩
    · rcases hp.event_cases with ⟨rfl, hu, -⟩ | ⟨he, -⟩
      · -- The request is queued, and it is the first message of the call.
        rw [hown (hs ▸ hu)]
        simp [requestOf?, Call.request, Call.id]
      · have hr := h.sent m call hn
        rcases he with rfl | rfl <;> simpa [requestOf?, Call.request, Call.id] using hr
    · rw [hquiet hmn]
      simpa using h.sent m c hm

/-- The record is kept by every step. -/
theorem next (h : x.Recorded history) (hx : x.Sound) (hc : x.Change a event y) :
    y.Recorded (history ++ [(a, event)]) := by
  cases hc with
  | @calls method params =>
    refine ⟨fun p hp => ?_, fun n hn => ?_, fun n call hn => ?_⟩
    · rw [handedOver, List.filterMap_append, List.mem_append]
      exact .inl (h.handed p hp)
    · rw [requestsOf_append, h.unsent n fun c hc => hn c (getElem?_append_of_some hc)]
      rfl
    · rw [requestsOf_append]
      rcases getElem?_append_cases hn with hn | ⟨rfl, rfl⟩
      · simpa [requestOf?] using h.sent n call hn
      · -- The call is new, so there is nothing that it could have queued.
        rw [h.unsent _ fun c hc => absurd (List.getElem?_eq_some_iff.1 hc).1 (Nat.lt_irrefl _)]
        exact .inl rfl
  | advances hn hs hp =>
    rw [hx.number_eq _ _ hn] at hp
    exact h.next_advances hn hs hp
  | @completes r =>
    refine h.next_quiet rfl fun p hp => ?_
    rcases Calls.mem_answers_of_complete hp with hp | ⟨rfl, -⟩
    · exact .inl hp
    · exact .inr rfl
  | closes _ | cancels _ | clears _ | others => exact h.next_quiet rfl fun _ => .inl

end Recorded

/-- In a run the history tells what was sent and handed over. -/
theorem Run.recorded (h : x.Run after y) (hx : x.Sound) (hr : x.Recorded before) :
    y.Recorded (before ++ after) := by
  induction h with
  | start => rwa [List.append_nil]
  | next a hrun hs ih =>
    rw [← List.append_assoc]
    exact ih.next (hrun.sound hx) (change_of_step hs)

/-! ## After the closing -/

/-- The closing is for good. -/
theorem Change.closed (h : x.Change a event y) :
    (x.table.closed = true → y.table.closed = true) ∧
      (x.closing = .finished → y.closing = .finished) := by
  cases h with
  | calls | others => exact ⟨id, id⟩
  | advances _ _ hp => exact ⟨fun hc => hp.table_eq.2.1.trans hc, id⟩
  | completes => exact ⟨(Calls.complete_closed _ _).trans, id⟩
  | closes hi => exact ⟨fun _ => rfl, by simp [hi]⟩
  | cancels hi => exact ⟨id, by simp [hi]⟩
  | clears hi => exact ⟨id, by simp [hi]⟩

/-- Nothing can be handed to a call any more, unless it is still to see that the connection is
closed. -/
def IsAbandoned (n : Nat) (x : Exchange) : Prop :=
  ∀ call, x.calls[n]? = some call →
    call.state = .goesOn .numbered ∨ call.state.isEarly = true ∨
    (∃ text, call.state = .yields (.error (.connection text))) ∨
    ((∀ p ∈ x.table.pending, p.2 ≠ n) ∧ ∀ p ∈ x.table.answers, p.1 ≠ n) ∧
      ∃ stage, call.state = .goesOn stage

/-- At the end of the closing every call without a response is abandoned. -/
theorem Sound.isAbandoned (h : x.Sound) (hf : x.closing = .finished) {n : Nat}
    (hn : x.calls.length ≤ n ∨ x.table.answer? n = none) : IsAbandoned n x := by
  intro call hcall
  have ha : ∀ p ∈ x.table.answers, p.1 ≠ n := by
    rcases hn with hn | hn
    · have := (List.getElem?_eq_some_iff.1 hcall).1
      omega
    · exact Calls.answer?_eq_none.1 hn
  cases hs : call.state with
  | yields outcome =>
    rcases h.returned n call outcome hcall hs with ⟨text, rfl⟩ | ⟨r, hr, -⟩
    · exact .inr (.inr (.inl ⟨text, rfl⟩))
    · exact absurd rfl (ha _ hr)
  | goesOn stage =>
    cases he : call.state.isEarly with
    | true => exact .inr (.inl (hs ▸ he))
    | false =>
      -- A call that is listed is early, as the table was cleared.
      refine .inr (.inr (.inr ⟨⟨fun p hp hpn => ?_, ha⟩, stage, rfl⟩))
      obtain ⟨c, hc, hce⟩ := h.cleared hf p hp
      rw [hpn, hcall] at hc
      rw [← Option.some.inj hc, he] at hce
      exact absurd hce (by decide)

/-- A call stays abandoned while it stays where it is and nothing is handed to it. -/
private theorem IsAbandoned.of_call_eq {n : Nat} (h : IsAbandoned n x)
    (hc : y.calls[n]? = x.calls[n]?)
    (ht : ((∀ p ∈ x.table.pending, p.2 ≠ n) ∧ ∀ p ∈ x.table.answers, p.1 ≠ n) →
      (∀ p ∈ y.table.pending, p.2 ≠ n) ∧ ∀ p ∈ y.table.answers, p.1 ≠ n) : IsAbandoned n y := by
  intro call hn
  rcases h call (hc ▸ hn) with hst | hst | hst | ⟨hnone, hst⟩
  · exact .inl hst
  · exact .inr (.inl hst)
  · exact .inr (.inr (.inl hst))
  · exact .inr (.inr (.inr ⟨ht hnone, hst⟩))

/-- A call that is abandoned stays so. -/
theorem IsAbandoned.next {n : Nat} (h : IsAbandoned n x) (hx : x.Sound)
    (hcl : x.table.closed = true) (hc : x.Change a event y) : IsAbandoned n y := by
  cases hc with
  | calls =>
    intro call hcall
    rcases getElem?_append_cases hcall with hcall | ⟨-, rfl⟩
    · exact h call hcall
    · exact .inl rfl
  | @advances m c stage _ state connection hm hs hp =>
    rw [hx.number_eq _ _ hm] at hp
    by_cases hmn : m = n
    · subst hmn
      intro call hcall
      have hstage : stage = .numbered ∨ (CallStep.goesOn stage).isEarly = true ∨
          (∀ p ∈ x.table.pending, p.2 ≠ m) ∧ ∀ p ∈ x.table.answers, p.1 ≠ m := by
        rcases h c hm with hst | hst | ⟨text, hst⟩ | ⟨hst, -⟩
        · exact .inl (CallStep.goesOn.inj (hs.symm.trans hst))
        · exact .inr (.inl (hs ▸ hst))
        · simp [hs] at hst
        · exact .inr (.inr hst)
      obtain rfl := Option.some.inj ((getElem?_set_of_some hm).symm.trans hcall)
      exact .inr (hp.abandoned hcl hstage)
    · -- The step of another call lists at most that call.
      refine h.of_call_eq (List.getElem?_set_ne hmn) fun hnone => ⟨fun p hpp => ?_, ?_⟩
      · rcases hp.mem_pending hpp with ⟨-, rfl⟩ | hpp
        · exact hmn
        · exact hnone.1 p hpp
      · show ∀ p ∈ connection.calls.answers, _
        rw [hp.table_eq.2.2]
        exact hnone.2
  | completes =>
    -- A response goes to a call that is listed, which this one is not.
    refine h.of_call_eq rfl fun hnone => ⟨fun p hp => ?_, fun p hp => ?_⟩
    · exact hnone.1 p (Calls.mem_pending_of_complete hp)
    · rcases Calls.mem_answers_of_complete hp with hp | ⟨-, q, hq, hqn⟩
      · exact hnone.2 p hp
      · exact hqn ▸ hnone.1 q hq
  | closes _ | cancels _ | others => exact h
  | clears _ => exact h.of_call_eq rfl fun hnone => ⟨nofun, hnone.2⟩

/-- After the closing a call that has not returned can take a step. -/
theorem Sound.isSome_advance (h : x.Sound) (hf : x.closing = .finished) {n : Nat} {call : Call}
    (hn : x.calls[n]? = some call) (hr : call.hasReturned = false) :
    (x.step (.advance n)).isSome = true := by
  cases hs : call.state with
  | yields outcome => simp [Call.hasReturned, hs] at hr
  | goesOn stage =>
    simp only [step, advance, hn, hs, Option.isSome_map]
    cases stage with
    | numbered | enlisted | refused | unsent | failed => rfl
    | waiting =>
      simp only [CallStage.step, Option.isSome_map, Calls.outcome?]
      -- What is still listed is early, but this call waits.
      have hw : x.table.isWaiting call.number = false := by
        refine Bool.eq_false_iff.2 fun hw => ?_
        obtain ⟨p, hp, hpn⟩ := Calls.isWaiting_iff.1 hw
        obtain ⟨c, hc, he⟩ := h.cleared hf p hp
        rw [hpn, h.number_eq n call hn, hn] at hc
        rw [← Option.some.inj hc, hs] at he
        exact absurd he (by decide)
      split
      · rfl
      · rw [if_neg (by rw [show x.connection.calls = x.table from rfl, hw]; decide)]
        rfl

/-- The steps that are left of a call at most; one that is not made yet has all before it. -/
def stepsLeft (n : Nat) (x : Exchange) : Nat := (x.calls[n]?.map (·.state.stepsLeft)).getD 4

/-- A step of a call is one less, and no other step gives it more. -/
theorem Change.stepsLeft_le (h : x.Change a event y) (n : Nat) :
    y.stepsLeft n + (if a.isStepOf n then 1 else 0) ≤ x.stepsLeft n := by
  cases h with
  | @calls method params =>
    show ((x.calls ++ _)[n]?.map _).getD 4 + 0 ≤ _
    by_cases hl : n < x.calls.length
    · rw [List.getElem?_append_left hl]
      exact Nat.le_refl _
    · -- The call that is made now had all four steps before it already.
      rw [List.getElem?_append_right (by omega), List.getElem?_singleton, stepsLeft,
        List.getElem?_eq_none (Nat.le_of_not_lt hl)]
      split <;> simp [CallStep.stepsLeft]
  | @advances m call stage _ state connection hm hs hp =>
    have hlt := hp.stepsLeft_lt
    show ((x.calls.set m { call with state })[n]?.map _).getD 4 + _ ≤ _
    by_cases hmn : m = n
    · subst hmn
      rw [getElem?_set_of_some hm]
      simp only [stepsLeft, hm, hs, Option.map_some, Option.getD_some, Act.isStepOf,
        beq_self_eq_true, if_true]
      omega
    · rw [List.getElem?_set_ne hmn]
      simp [Act.isStepOf, hmn, stepsLeft]
  | completes | closes _ | cancels _ | clears _ | others => exact Nat.le_refl _

/-- What steps a call takes in a run it does not have to take any more. -/
theorem Run.stepsLeft_le (h : x.Run history y) (n : Nat) :
    stepsOf n history + y.stepsLeft n ≤ x.stepsLeft n := by
  induction h with
  | start => simp [stepsOf]
  | next a _ hs ih =>
    have hle := (change_of_step hs).stepsLeft_le n
    simp only [stepsOf, List.countP_append, List.countP_singleton] at ih ⊢
    omega

/-- A call has four steps at most. -/
theorem stepsLeft_le (n : Nat) (x : Exchange) : x.stepsLeft n ≤ 4 := by
  simp only [stepsLeft]
  cases hn : x.calls[n]? with
  | none => simp
  | some call =>
    simp only [Option.map_some, Option.getD_some]
    unfold CallStep.stepsLeft
    split <;> omega

/-- A call has seen that the connection is closed, and has queued nothing. -/
structure HasTurnedBack (n : Nat) (history : List (Act × Event)) (x : Exchange) : Prop where
  state_eq : ∃ call, x.calls[n]? = some call ∧
    (call.state = .goesOn .refused ∨ call.hasReturned = true)
  requests_eq : requestsOf n history = []

/-- A call that was turned back stays so. -/
theorem HasTurnedBack.next {n : Nat} (h : HasTurnedBack n history x) (hx : x.Sound)
    (hc : x.Change a event y) : HasTurnedBack n (history ++ [(a, event)]) y := by
  obtain ⟨⟨call, hn, hst⟩, hr⟩ := h
  cases hc with
  | calls =>
    exact ⟨⟨call, getElem?_append_of_some hn, hst⟩, by simp [requestsOf_append, hr, requestOf?]⟩
  | @advances m c stage _ state connection hm hs hp =>
    rw [hx.number_eq _ _ hm] at hp
    have hset : (x.calls.set m { c with state })[m]? = some { c with state } :=
      getElem?_set_of_some hm
    by_cases hmn : m = n
    · subst hmn
      obtain rfl := Option.some.inj (hm.symm.trans hn)
      rcases hst with hst | hst
      · -- The only step from here returns the error.
        have hstage : stage = .refused := CallStep.goesOn.inj (hs.symm.trans hst)
        subst hstage
        generalize connection.calls = table at hp
        cases hp with
        | givesUp =>
          exact ⟨⟨_, hset, .inr rfl⟩, by simp [requestsOf_append, hr, requestOf?]⟩
      · simp [Call.hasReturned, hs] at hst
    · refine ⟨⟨call, (List.getElem?_set_ne hmn).trans hn, hst⟩, ?_⟩
      rw [requestsOf_append, hr]
      rcases hp.event_cases with ⟨rfl, -⟩ | ⟨rfl | rfl, -⟩
      · simp [requestOf?, hmn]
      · rfl
      · rfl
  | completes | closes _ | cancels _ | clears _ | others =>
    exact ⟨⟨call, hn, hst⟩, by simp [requestsOf_append, hr, requestOf?]⟩

/-- No two calls are listed under one identifier. -/
theorem Run.nodup_ids (h : x.Run history y) (hx : (x.table.pending.map (·.1)).Nodup) :
    (y.table.pending.map (·.1)).Nodup := by
  induction h with
  | start => exact hx
  | next a _ hstep ih =>
    cases change_of_step hstep with
    | calls | closes _ | cancels _ | others => exact ih
    | completes => exact Calls.nodup_complete ih _
    | clears _ => exact List.nodup_nil
    | @advances n call stage event state connection _ _ hpassage =>
      show (connection.calls.pending.map (·.1)).Nodup
      generalize connection.calls = c at hpassage ⊢
      cases hpassage with
      -- A call that is listed takes the place of any other with its identifier.
      | lists => exact Calls.nodup_enlist ih _
      | givesUp | withdraws => exact Calls.nodup_release ih _
      | turnsBack _ | passes _ | sends | fails | receives _ | despairs _ _ => exact ih

/-- A response goes to the call that is listed under its identifier. -/
theorem Sound.complete_of_isWaiting (h : x.Sound) (hd : (x.table.pending.map (·.1)).Nodup)
    {r : ResponseMessage} {n : Nat} {call : Call} (hn : x.calls[n]? = some call)
    (hw : x.table.isWaiting n = true) (hid : r.id = some call.id) :
    (x.table.complete r).isWaiting n = false ∧ (x.table.complete r).answer? n = some r := by
  obtain ⟨p, hp, hpn⟩ := Calls.isWaiting_iff.1 hw
  have hmem : (Calls.idOf n, n) ∈ x.table.pending := by
    rwa [← hpn, ← (h.listed p hp).1]
  rw [Call.id, h.number_eq n call hn] at hid
  obtain ⟨hleft, hanswer⟩ := Calls.complete_of_mem hd hid hmem
  refine ⟨?_, hanswer⟩
  rw [Bool.eq_false_iff, ne_eq, Calls.isWaiting_iff]
  rintro ⟨q, hq, rfl⟩
  -- A call is listed under no identifier but its own.
  obtain ⟨hq, hne⟩ := (hleft q).1 hq
  exact hne (h.listed q hq).1

/-- A call that waits and has got its response returns what it says. -/
theorem Sound.advance_of_answer? (h : x.Sound) {r : ResponseMessage} {n : Nat} {call : Call}
    (hn : x.calls[n]? = some call) (hs : call.state = .goesOn .waiting)
    (hr : x.table.answer? n = some r) :
    ∃ u, x.step (.advance n) = some (.quiet, u) ∧
      u.calls[n]? = some { call with state := .yields (Calls.resultOf r) } := by
  have hnumber := h.number_eq n call hn
  -- What the call gets is what the response holds.
  have houtcome : x.connection.calls.outcome? call.number call.method =
      some (Calls.resultOf r) := by
    rw [hnumber]
    simp only [Calls.outcome?, show x.connection.calls.answer? n = some r from hr]
  refine ⟨{ x with calls := x.calls.set n { call with state := .yields (Calls.resultOf r) } }, ?_,
    getElem?_set_of_some hn⟩
  simp only [step, advance, hn, hs, CallStage.step, houtcome, Option.map_some]

/-! ## All runs -/

/-- A response takes a call off the list only if it has the identifier of the call. -/
theorem Sound.id_of_releases (h : x.Sound) {r : ResponseMessage} {n : Nat} (hr : x.Releases r n) :
    ∃ call, x.calls[n]? = some call ∧ r.id = some call.id := by
  obtain ⟨hw, hc⟩ := hr
  obtain ⟨p, hp, hpn⟩ := Calls.isWaiting_iff.1 hw
  obtain ⟨hid, call, hn, -⟩ := h.listed p hp
  rw [hpn] at hid hn
  refine ⟨call, hn, ?_⟩
  rcases x.table.complete_cases r with ⟨he, -⟩ | ⟨q, -, hq, he⟩
  · rw [he, hw] at hc
    exact absurd hc (by decide)
  · by_cases hpq : p.1 = q.1
    · rw [hq, ← hpq, hid, Call.id, h.number_eq n call hn]
    · -- The entry of the call stands under another identifier, so it is still there.
      have hstay : (x.table.complete r).isWaiting n = true := by
        refine Calls.isWaiting_iff.2 ⟨p, ?_, hpn⟩
        rw [he]
        simpa [Calls.release] using ⟨hp, hpq⟩
      rw [hstay] at hc
      exact absurd hc (by decide)

/-- As long as numbers do not come around, calls have identifiers of their own. -/
theorem Sound.distinct (h : x.Sound) (few : x.calls.length < UInt32.size) {m n : Nat} {a b : Call}
    (ha : x.calls[m]? = some a) (hb : x.calls[n]? = some b) (he : a.id = b.id) : m = n := by
  rw [Call.id, Call.id, h.number_eq m a ha, h.number_eq n b hb] at he
  have hm := (List.getElem?_eq_some_iff.1 ha).1
  have hn := (List.getElem?_eq_some_iff.1 hb).1
  exact Calls.idOf_inj (Nat.lt_trans hm few) (Nat.lt_trans hn few) he

/-- When all calls have returned none is listed. -/
theorem Sound.pending_eq_nil (h : x.Sound) (hr : ∀ call ∈ x.calls, call.hasReturned = true) :
    x.table.pending = [] := by
  refine List.eq_nil_iff_forall_not_mem.2 fun p hp => ?_
  obtain ⟨-, call, hn, hl⟩ := h.listed p hp
  have := hr call (List.mem_of_getElem? hn)
  cases hs : call.state with
  | yields outcome => simp [hs, CallStep.isListed] at hl
  | goesOn stage => simp [Call.hasReturned, hs] at this

/-- What is closed for good stays so. -/
theorem Run.closing_eq (h : x.Run history y) (hx : x.Sound) (hf : x.closing = .finished) :
    y.closing = .finished ∧ y.table.closed = true := by
  have hy : y.closing = .finished := by
    induction h with
    | start => exact hf
    | next a _ hs ih => exact (change_of_step hs).closed.2 ih
  exact ⟨hy, (h.sound hx).closed (by simp [hy])⟩

/-- A call that was abandoned stays so. -/
theorem Run.isAbandoned (h : x.Run history y) (hx : x.Sound) (hf : x.closing = .finished) {n : Nat}
    (hn : IsAbandoned n x) : IsAbandoned n y := by
  induction h with
  | start => exact hn
  | next a hrun hs ih =>
    exact ih.next (hrun.sound hx) (hrun.closing_eq hx hf).2 (change_of_step hs)

/-- A call that was turned back stays so in a run. -/
theorem Run.hasTurnedBack (h : x.Run after y) (hx : x.Sound) {n : Nat}
    (hn : HasTurnedBack n before x) : HasTurnedBack n (before ++ after) y := by
  induction h with
  | start => rwa [List.append_nil]
  | next a hrun hs ih =>
    rw [← List.append_assoc]
    exact ih.next (hrun.sound hx) (change_of_step hs)

/-- Whatever the order of the steps of the calls, the responses and the closing, the calls on a
connection keep their promises. -/
theorem faithful_of_run {c : Connection} (first : (ofConnection c).Run before x)
    (second : x.Run after y) (few : y.calls.length < UInt32.size) : Faithful before after x y := by
  have hx := first.sound (sound_ofConnection c)
  have hy := second.sound hx
  -- Nothing is recorded of a connection on which no call was made.
  have hrx : x.Recorded before := by
    have h : x.Recorded ([] ++ before) :=
      first.recorded (sound_ofConnection c) ⟨nofun, fun _ _ => rfl, nofun⟩
    rwa [List.nil_append] at h
  have hry := second.recorded hx hrx
  have hnodup : (y.table.pending.map (·.1)).Nodup :=
    second.nodup_ids (first.nodup_ids List.nodup_nil)
  refine ⟨fun m n a b ha hb he => hy.distinct few ha hb he, hry.sent, ?outcomes, ?releases,
    ?answers, ?unmatched, hy.pending_eq_nil, ?returns, ?abandoned, ?refused⟩
  case outcomes =>
    intro n call outcome hn hs
    rcases hy.returned n call outcome hn hs with ht | ⟨r, hr, ho⟩
    · exact .inl ht
    · have hid := (hy.answered _ hr).1
      refine .inr ⟨r, hry.handed _ hr, ?_, ho⟩
      rw [hid, Call.id, hy.number_eq n call hn]
  case releases =>
    -- Two calls that a response releases have the same identifier.
    intro r n hr
    obtain ⟨call, hn, hid⟩ := hy.id_of_releases hr
    refine ⟨⟨call, hn, hid⟩, fun m hm => ?_⟩
    obtain ⟨other, hother, hoid⟩ := hy.id_of_releases hm
    exact hy.distinct few hother hn (Option.some.inj (hoid.symm.trans hid))
  case answers =>
    intro r n call hn hw hid
    obtain ⟨hfree, hanswer⟩ := hy.complete_of_isWaiting hnodup hn hw hid
    have hz := second.next (.complete r) rfl |>.sound hx
    exact ⟨⟨hw, hfree⟩, _, rfl, hanswer, fun hs => hz.advance_of_answer? hn hs hanswer⟩
  case unmatched =>
    intro r hr
    rcases y.table.complete_cases r with ⟨he, -⟩ | ⟨p, hp, hid, -⟩
    · rw [step, he]
      rfl
    · exact absurd hid (hr p hp)
  case returns =>
    intro hf n call hn
    refine ⟨hy.isSome_advance (second.closing_eq hx hf).1 hn, ?_⟩
    have hle := second.stepsLeft_le n
    have hmax := stepsLeft_le n x
    simp only [stepsLeft, hn, Option.map_some, Option.getD_some] at hle hmax
    omega
  case abandoned =>
    intro hf n call outcome hn hlate hs
    -- A call that is abandoned and has returned can only have returned the error.
    rcases second.isAbandoned hx hf (hx.isAbandoned hf hlate) call hn with
      hst | hst | ⟨text, hst⟩ | ⟨-, stage, hst⟩
    · simp [hs] at hst
    · simp [hs, CallStep.isEarly] at hst
    · exact ⟨text, CallStep.yields.inj (hs.symm.trans hst)⟩
    · simp [hs] at hst
  case refused =>
    intro n call hn hs
    have hr : requestsOf n before = [] := hrx.unsent n fun other ho => by
      rw [← Option.some.inj (hn.symm.trans ho), hs]
      rfl
    exact (second.hasTurnedBack hx ⟨⟨call, hn, .inl hs⟩, hr⟩).requests_eq

/-- A connection without a callback. -/
def exampleConnection : Connection := { handler := { entries := .ofList [] } }

/-- A response to the first call on a connection. -/
def exampleResponse : ResponseMessage := .success (Calls.idOf 0) (.bool true)

/-- A call that is listed before the connection is closed sees that, and returns an error without a
request.  A call that waits on an open connection returns what the response says that is handed
over. -/
theorem faithful_exampleConnection :
    (∃ x y before after, (ofConnection exampleConnection).Run before x ∧ x.Run after y ∧
      x.closing = .finished ∧ stepsOf 0 after = 1 ∧ requestsOf 0 (before ++ after) = [] ∧
      ∃ call text, y.calls[0]? = some call ∧
        call.state = .yields (.error (.connection text))) ∧
    ∃ x history, (ofConnection exampleConnection).Run history x ∧
      x.Releases exampleResponse 0 ∧
      ∃ y z call, x.step (.complete exampleResponse) = some (.quiet, y) ∧
        y.step (.advance 0) = some (.quiet, z) ∧ z.calls[0]? = some call ∧
        call.state = .yields (.ok (.bool true)) := by
  have called := Run.next (.call "m" .null) (.start (x := ofConnection exampleConnection)) rfl
  have listed := Run.next (.advance 0) called rfl
  constructor
  · -- The table is closed between the listing of a call and its next step.
    have closed := Run.next .close (Run.next .close (Run.next .close listed rfl) rfl) rfl
    have first := Run.next (.advance 0) closed rfl
    refine ⟨_, _, _, _, first, .next (.advance 0) .start rfl, rfl, rfl, ?_, ?_⟩
    · exact (faithful_of_run first (.next (.advance 0) .start rfl) (by decide)).refused 0 _ rfl rfl
    · obtain ⟨text, ht⟩ := (faithful_of_run first (.next (.advance 0) .start rfl)
        (by decide)).abandoned rfl 0 _ _ rfl (.inr rfl) rfl
      exact ⟨_, text, rfl, congrArg CallStep.yields ht⟩
  · -- The response is handed over while the call waits.
    have waits := Run.next (.advance 0) (Run.next (.advance 0) listed rfl) rfl
    obtain ⟨hreleases, z, hcomplete, -, hreturns⟩ :=
      (faithful_of_run waits .start (by decide)).answers exampleResponse 0 _ rfl rfl rfl
    obtain ⟨u, hadvance, hcall⟩ := hreturns rfl
    exact ⟨_, _, waits, hreleases, z, u, _, hcomplete, hadvance, hcall, rfl⟩

end Exchange

end LanguageServer
