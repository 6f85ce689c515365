import LanguageServer.Proofs.Server.Change

/-!
# An account of every message

At every moment of a run each message that was taken is accounted for: the work on it is in hand,
and as much of its story has happened as the stage of the work says, or its story has come to its
end.  `Session.Accounts` is this invariant and `Session.accounts_of_run` says that every run keeps
it.
-/

namespace LanguageServer

open Event (arrivals arrivals_append story story_append_of_ne)

/-- What is left to do after a step of the work on a message. -/
def Work.left (w : Work) : List Work := if w.isOver then [] else [w]

/-- What is left of work is the work itself, until it is over. -/
theorem Work.mem_left {v w : Work} : v ∈ w.left ↔ w.isOver = false ∧ v = w := by
  cases ho : w.isOver <;> simp [left, ho]

namespace Session

/-- The work in hand. -/
def works (s : Session) : List Work := s.current.toList ++ s.queue ++ s.jobs

/-- The numbers of the messages whose work is in hand. -/
def numbers (s : Session) : List Nat := s.works.map (·.number)

/-- The work that a message brings when it is taken. -/
def workOn? (s : Session) (m : RpcMessage) : Option Work :=
  (m.context? s.requestTimeout).map (⟨s.taken, ·, .arrived⟩)

/-- What a move does to the work in hand, in whatever order it is. -/
inductive Turnover (s : Session) : Event → List Work → Prop
  | same {event : Event} : event.deed? = none → event.arrival? = none → Turnover s event s.works
  | adds {m : RpcMessage} {works : List Work} : works.Perm ((s.workOn? m).toList ++ s.works) →
    Turnover s (.taken s.taken m) works
  | advances {event : Event} {w w' : Work} {rest works : List Work} : s.works.Perm (w :: rest) →
    w.Passage event w' → works.Perm (w'.left ++ rest) → Turnover s event works

variable {s t : Session} {event : Event} {events : List Event}

/-- The numbers are those of work that is not over. -/
theorem mem_numbers {number : Nat} : number ∈ s.numbers ↔ ∃ w ∈ s.works, w.number = number :=
  List.mem_map

/-- The work on a message that is taken has its number and waits. -/
theorem workOn?_eq_some {m : RpcMessage} {w : Work} (h : s.workOn? m = some w) :
    w.number = s.taken ∧ w.stage = .arrived ∧ m.context? s.requestTimeout = some w.context := by
  obtain ⟨x, hx, rfl⟩ := Option.map_eq_some_iff.1 h
  exact ⟨rfl, rfl, hx⟩

/-- Putting work in its place changes that place only. -/
theorem putJob_eq {w w' : Work} {before after : List Work} (hn : w'.number = w.number)
    (hd : ((before ++ w :: after).map (·.number)).Nodup) :
    putJob w' (before ++ w :: after) = before ++ w'.left ++ after := by
  simp only [List.map_append, List.map_cons, List.nodup_append, List.nodup_cons, List.mem_map,
    List.mem_cons, not_exists, not_and] at hd
  obtain ⟨-, ⟨ha, -⟩, hb⟩ := hd
  have hb : ∀ v ∈ before, v.number ≠ w.number := fun v hv =>
    hb v.number ⟨v, hv, rfl⟩ w.number (.inl rfl)
  -- No other work has the number, so filter and map leave the rest as it is.
  simp only [putJob, Work.left, hn]
  split
  · have hfb : before.filter (·.number != w.number) = before :=
      List.filter_eq_self.2 fun v hv => by simpa using hb v hv
    have hfa : after.filter (·.number != w.number) = after :=
      List.filter_eq_self.2 fun v hv => by simpa using ha v hv
    simp [hfb, hfa]
  · have hmb : before.map (fun v => if v.number = w.number then w' else v) = before := by
      rw [List.map_congr_left fun v hv => if_neg (hb v hv)]
      exact List.map_id _
    have hma : after.map (fun v => if v.number = w.number then w' else v) = after := by
      rw [List.map_congr_left fun v hv => if_neg (ha v hv)]
      exact List.map_id _
    simp [hmb, hma]

/-- The work in hand when some is added to the queue. -/
theorem perm_works_queue (s : Session) (w : Work) :
    (s.current.toList ++ (s.queue ++ [w]) ++ s.jobs).Perm (w :: s.works) := by
  have hp := List.perm_append_comm_assoc (s.current.toList ++ s.queue) [w] s.jobs
  simpa [works] using hp

/-- The work in hand when some is added to the jobs. -/
theorem perm_works_jobs_append (s : Session) (w : Work) :
    (s.current.toList ++ s.queue ++ (s.jobs ++ [w])).Perm (w :: s.works) := by
  simpa [works] using List.perm_append_singleton w (s.current.toList ++ s.queue ++ s.jobs)

/-- The work in hand when the worker takes a step. -/
theorem perm_works_current {w : Work} (hc : s.current = some w) (w' : Work)
    (connection : Connection) :
    s.works.Perm (w :: (s.queue ++ s.jobs)) ∧
    (works { s with connection, current := if w'.isOver then none else some w' }).Perm
      (w'.left ++ (s.queue ++ s.jobs)) := by
  have hw : s.works = w :: (s.queue ++ s.jobs) := by simp [works, hc]
  refine ⟨.of_eq hw, .of_eq ?_⟩
  cases ho : w'.isOver <;> simp [works, Work.left, ho]

/-- The work in hand when a job takes a step. -/
theorem perm_works_jobs {w w' : Work} (hj : w ∈ s.jobs) (hn : w'.number = w.number)
    (hd : s.numbers.Nodup) (connection : Connection) :
    ∃ rest, s.works.Perm (w :: rest) ∧
      (works { s with connection, jobs := putJob w' s.jobs }).Perm (w'.left ++ rest) := by
  obtain ⟨before, after, hb⟩ := List.append_of_mem hj
  have hw : s.works = (s.current.toList ++ s.queue ++ before) ++ w :: after := by
    simp [works, hb]
  -- Numbers differ among all works in hand, so they do among the jobs.
  have hdj : ((before ++ w :: after).map (·.number)).Nodup := by
    rw [numbers, works, hb, List.map_append] at hd
    exact (List.nodup_append.1 hd).2.1
  refine ⟨_, hw ▸ List.perm_middle, ?_⟩
  simp only [works, hb, putJob_eq hn hdj]
  simpa using List.perm_append_comm_assoc (s.current.toList ++ s.queue ++ before) w'.left after

/-- What a change does to the work in hand. -/
theorem Change.turnover (h : s.Change event t) (hd : s.numbers.Nodup) :
    s.Turnover event t.works := by
  cases h with
  | aside _ he _ _ _ _ => exact .same (Event.deed?_of_isAside he) (Event.arrival?_of_isAside he)
  | resolves _ => exact .adds (.refl _)
  | queues _ _ _ _ _ hx _ _ =>
    refine .adds ?_
    simp only [workOn?, hx, Option.map_some, Option.toList_some, List.singleton_append]
    exact perm_works_queue s _
  | starts _ _ _ hx _ =>
    refine .adds ?_
    simp only [workOn?, hx, Option.map_some, Option.toList_some, List.singleton_append]
    exact perm_works_jobs_append s _
  | @picksUp w rest hc hq =>
    have hw : s.works = w :: rest ++ s.jobs := by simp [works, hc, hq]
    -- Work that is picked up is listed first, as before.
    have ht : s.Turnover .quiet s.works := .same rfl rfl
    rwa [hw] at ht
  | workerSteps hc ha =>
    obtain ⟨hb, ht⟩ := perm_works_current hc _ _
    exact .advances hb (Work.passage_of_advance ha).1 ht
  | jobSteps hj ha =>
    have hp := (Work.passage_of_advance ha).1
    obtain ⟨rest, hb, ht⟩ := perm_works_jobs hj hp.number_eq.1 hd _
    exact .advances hb hp ht

/-- A change counts the message that it takes, and leaves the timeout. -/
theorem Change.taken_eq (h : s.Change event t) :
    t.taken = s.taken + event.arrival?.toList.length ∧ t.requestTimeout = s.requestTimeout := by
  cases h with
  | aside _ he _ _ _ _ => simp [Event.arrival?_of_isAside he]
  | resolves _ | queues _ _ _ _ _ _ _ _ | starts _ _ _ _ _ => exact ⟨rfl, rfl⟩
  | picksUp _ _ => exact ⟨rfl, rfl⟩
  | workerSteps _ ha | jobSteps _ ha =>
    simp [(Work.passage_of_advance ha).1.input_eq.1]

/-! ## The invariant -/

/-- All that can have happened to a message when no work on it is left. -/
def IsTold (timeout : Option Nat) (m : RpcMessage) (story : List Deed) : Prop :=
  match m.context? timeout with
  | some x => ∃ conclusion, story = x.story conclusion
  | none => story = []

/-- Every message that was taken is accounted for. -/
structure Accounts (timeout : Option Nat) (events : List Event) (s : Session) : Prop where
  timeout_eq : s.requestTimeout = timeout
  numbered : (arrivals events).map (·.1) = List.range s.taken
  nodup : s.numbers.Nodup
  known : ∀ w ∈ s.works, ∃ m, (w.number, m) ∈ arrivals events ∧
    m.context? timeout = some w.context
  tells : ∀ w ∈ s.works, w.Tells (story w.number events)
  told : ∀ number m, (number, m) ∈ arrivals events → number ∉ s.numbers →
    IsTold timeout m (story number events)
  silent : ∀ number, s.taken ≤ number → story number events = []

namespace Accounts

variable {timeout : Option Nat}

/-- Messages are numbered in the order of their arrival. -/
theorem getElem?_arrivals (ha : s.Accounts timeout events) {number : Nat} {m : RpcMessage} :
    (number, m) ∈ arrivals events ↔ (arrivals events)[number]? = some (number, m) := by
  refine ⟨fun h => ?_, List.mem_of_getElem?⟩
  obtain ⟨i, hi, he⟩ := List.getElem_of_mem h
  have hn : ((arrivals events).map (·.1))[i]? = (List.range s.taken)[i]? := by rw [ha.numbered]
  -- There are as many messages as numbers were given out.
  have hl : i < s.taken := by
    have := congrArg List.length ha.numbered
    simp only [List.length_map, List.length_range] at this
    omega
  simp only [List.getElem?_map, List.getElem?_eq_getElem hi, he, Option.map_some,
    List.getElem?_range hl, Option.some.injEq] at hn
  rw [hn, List.getElem?_eq_getElem hi, he, hn]

/-- No two messages have one number. -/
theorem arrival_unique (ha : s.Accounts timeout events) {number : Nat} {m m' : RpcMessage}
    (h : (number, m) ∈ arrivals events) (h' : (number, m') ∈ arrivals events) : m = m' := by
  rw [ha.getElem?_arrivals] at h h'
  rw [h] at h'
  simpa using h'

/-- Messages are numbered below the number of those taken. -/
theorem lt_taken (ha : s.Accounts timeout events) {number : Nat} {m : RpcMessage}
    (h : (number, m) ∈ arrivals events) : number < s.taken := by
  have hm : number ∈ (arrivals events).map (·.1) := List.mem_map.2 ⟨_, h, rfl⟩
  rwa [ha.numbered, List.mem_range] at hm

/-- Work is in hand for messages that were taken only. -/
theorem lt_taken_of_mem_numbers (ha : s.Accounts timeout events) {number : Nat}
    (h : number ∈ s.numbers) : number < s.taken := by
  obtain ⟨w, hw, rfl⟩ := mem_numbers.1 h
  obtain ⟨m, hm, -⟩ := ha.known w hw
  exact ha.lt_taken hm

/-- Nothing happens to the work in hand. -/
private theorem next_same (ha : s.Accounts timeout events) (hd : event.deed? = none)
    (hr : event.arrival? = none) (hw : t.works = s.works) (ht : t.taken = s.taken)
    (hto : t.requestTimeout = s.requestTimeout) : t.Accounts timeout (events ++ [event]) := by
  have hs : ∀ number, story number (events ++ [event]) = story number events := fun _ =>
    story_append_of_ne (by simp [hd]) events
  have har : arrivals (events ++ [event]) = arrivals events := by simp [arrivals_append, hr]
  have hn : t.numbers = s.numbers := by rw [numbers, numbers, hw]
  -- Every account is as before, since there is nothing new to tell.
  refine ⟨hto.trans ha.timeout_eq, ?numbered, hn ▸ ha.nodup, ?known, ?tells, ?told, ?silent⟩
  case numbered =>
    rw [har, ht]
    exact ha.numbered
  case known =>
    rw [har, hw]
    exact ha.known
  case tells =>
    intro w hm
    rw [hs]
    exact ha.tells w (hw ▸ hm)
  case told =>
    intro number m hm hnot
    rw [har] at hm
    rw [hs]
    exact ha.told number m hm (hn ▸ hnot)
  case silent =>
    intro number hle
    rw [hs]
    exact ha.silent number (ht ▸ hle)

/-- A message is taken. -/
private theorem next_adds (ha : s.Accounts timeout events) {m : RpcMessage}
    (hw : t.works.Perm ((s.workOn? m).toList ++ s.works)) (ht : t.taken = s.taken + 1)
    (hto : t.requestTimeout = s.requestTimeout) :
    t.Accounts timeout (events ++ [.taken s.taken m]) := by
  have hs : ∀ number, story number (events ++ [.taken s.taken m]) = story number events :=
    fun _ => story_append_of_ne (by simp [Event.deed?]) events
  have har : arrivals (events ++ [.taken s.taken m]) = arrivals events ++ [(s.taken, m)] := by
    simp [arrivals_append, Event.arrival?]
  have hmem : ∀ w, w ∈ t.works ↔ s.workOn? m = some w ∨ w ∈ s.works := by
    intro w
    rw [hw.mem_iff, List.mem_append, Option.mem_toList]
  -- Nothing has happened yet to a message with the next number.
  have hnew : story s.taken events = [] := ha.silent _ (Nat.le_refl _)
  refine ⟨hto.trans ha.timeout_eq, ?numbered, ?nodup, ?known, ?tells, ?told, ?silent⟩
  case numbered =>
    rw [har, List.map_append, ha.numbered, ht, List.range_succ]
    rfl
  case nodup =>
    rw [numbers, (hw.map _).nodup_iff]
    cases hx : s.workOn? m with
    | none => exact ha.nodup
    | some w =>
      refine List.nodup_cons.2 ⟨fun h => ?_, ha.nodup⟩
      -- The number is the next one, which no work in hand can have.
      have hlt : w.number < s.taken := ha.lt_taken_of_mem_numbers h
      rw [(workOn?_eq_some hx).1] at hlt
      omega
  case known =>
    intro w h
    rw [har]
    rcases (hmem w).1 h with h | h
    · obtain ⟨hn, -, hx⟩ := workOn?_eq_some h
      exact ⟨m, by simp [hn], ha.timeout_eq ▸ hx⟩
    · obtain ⟨m', hm', hx⟩ := ha.known w h
      exact ⟨m', List.mem_append_left _ hm', hx⟩
  case tells =>
    intro w h
    rw [hs]
    rcases (hmem w).1 h with h | h
    · obtain ⟨hn, hst, -⟩ := workOn?_eq_some h
      rw [hn, Work.Tells, hst]
      exact hnew
    · exact ha.tells w h
  case told =>
    intro number m' hm' hnot
    rw [har, List.mem_append, List.mem_singleton, Prod.mk.injEq] at hm'
    rw [hs]
    rcases hm' with hm' | ⟨rfl, rfl⟩
    · refine ha.told number m' hm' fun h => hnot ?_
      obtain ⟨w, hws, hn⟩ := mem_numbers.1 h
      exact mem_numbers.2 ⟨w, (hmem w).2 (.inr hws), hn⟩
    · -- Only a response is done with as soon as it is taken.
      cases hx : s.workOn? m' with
      | some w =>
        exact absurd (mem_numbers.2 ⟨w, (hmem w).2 (.inl hx), (workOn?_eq_some hx).1⟩) hnot
      | none =>
        rw [IsTold, ← ha.timeout_eq, Option.map_eq_none_iff.1 hx]
        exact hnew
  case silent =>
    intro number hle
    rw [hs]
    exact ha.silent number (by omega)

/-- The work on a message takes a step. -/
private theorem next_advances (ha : s.Accounts timeout events) {w w' : Work} {rest : List Work}
    (hb : s.works.Perm (w :: rest)) (hp : w.Passage event w')
    (hw : t.works.Perm (w'.left ++ rest)) (ht : t.taken = s.taken)
    (hto : t.requestTimeout = s.requestTimeout) : t.Accounts timeout (events ++ [event]) := by
  have har : arrivals (events ++ [event]) = arrivals events := by
    simp [arrivals_append, hp.input_eq.1]
  have hwm : w ∈ s.works := hb.mem_iff.2 List.mem_cons_self
  have hmem : ∀ v, v ∈ t.works ↔ (w'.isOver = false ∧ v = w') ∨ v ∈ rest := by
    intro v
    rw [hw.mem_iff, List.mem_append, Work.mem_left]
  have htold := hp.tells_story (ha.tells w hwm)
  obtain ⟨hnw, hxw⟩ := hp.number_eq
  have hnd := ha.nodup
  rw [numbers, (hb.map _).nodup_iff, List.map_cons, List.nodup_cons] at hnd
  -- A step is told of one message only, so the stories of the others stay.
  have hne : ∀ v ∈ rest, v.number ≠ w.number := fun v hv he =>
    hnd.1 (List.mem_map.2 ⟨v, hv, he⟩)
  have hrest : ∀ v ∈ rest, v ∈ s.works := fun v hv => hb.mem_iff.2 (List.mem_cons_of_mem _ hv)
  refine ⟨hto.trans ha.timeout_eq, ?numbered, ?nodup, ?known, ?tells, ?told, ?silent⟩
  case numbered =>
    rw [har, ht]
    exact ha.numbered
  case nodup =>
    -- The number stays or goes; none is added.
    rw [numbers, (hw.map _).nodup_iff]
    cases ho : w'.isOver with
    | true => simpa [Work.left, ho] using hnd.2
    | false => simpa [Work.left, ho, hnw] using hnd
  case known =>
    intro v hv
    rw [har]
    rcases (hmem v).1 hv with ⟨-, rfl⟩ | hv
    · rw [hnw, hxw]
      exact ha.known w hwm
    · exact ha.known v (hrest v hv)
  case tells =>
    intro v hv
    rcases (hmem v).1 hv with ⟨-, rfl⟩ | hv
    · rw [hnw]
      exact htold
    · rw [hp.story_of_ne (hne v hv)]
      exact ha.tells v (hrest v hv)
  case told =>
    intro number m hm hnot
    rw [har] at hm
    by_cases hn : number = w.number
    · subst hn
      -- The work is done, so the story of its message has come to its end.
      have ho : w'.isOver = true := by
        cases ho : w'.isOver with
        | true => rfl
        | false => exact absurd (mem_numbers.2 ⟨w', (hmem w').2 (.inl ⟨ho, rfl⟩), hnw⟩) hnot
      obtain ⟨m', hm', hx⟩ := ha.known w hwm
      rw [ha.arrival_unique hm hm', IsTold, hx, ← hxw]
      exact htold.of_isOver ho
    · rw [hp.story_of_ne hn]
      refine ha.told number m hm fun h => hnot ?_
      obtain ⟨v, hv, rfl⟩ := mem_numbers.1 h
      rcases List.mem_cons.1 (hb.mem_iff.1 hv) with rfl | hv
      · exact absurd rfl hn
      · exact mem_numbers.2 ⟨v, (hmem v).2 (.inr hv), rfl⟩
  case silent =>
    intro number hle
    have hlt := ha.lt_taken_of_mem_numbers (mem_numbers.2 ⟨w, hwm, rfl⟩)
    rw [hp.story_of_ne (by omega)]
    exact ha.silent number (by omega)

/-- A move keeps account of every message. -/
theorem next (ha : s.Accounts timeout events) (h : s.Change event t) :
    t.Accounts timeout (events ++ [event]) := by
  obtain ⟨ht, hto⟩ := h.taken_eq
  have hw := h.turnover ha.nodup
  generalize hworks : t.works = works at hw
  cases hw with
  | same hd hr => exact ha.next_same hd hr hworks (by simpa [hr] using ht) hto
  | adds hp => exact ha.next_adds (hworks ▸ hp) ht hto
  | advances hb hp hl =>
    exact ha.next_advances hb hp (hworks ▸ hl) (by simpa [hp.input_eq.1] using ht) hto

end Accounts

/-- Every run accounts for every message. -/
theorem accounts_of_run {server : Server} (h : server.session.Run events s) :
    s.Accounts server.requestTimeout events := by
  induction h with
  | start =>
    refine ⟨rfl, rfl, List.nodup_nil, ?_, ?_, ?_, fun _ _ => rfl⟩ <;>
      simp [Server.session, works, Event.arrivals]
  | next m _ hm ih => exact ih.next (change_of_move hm)

end Session

end LanguageServer
