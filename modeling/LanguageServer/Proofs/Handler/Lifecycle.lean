import LanguageServer.Proofs.Handler.Dispatch
import Mathlib.Data.List.Induction

/-!
# The life of a handler

A `Handler.Run` is what happens to a handler over time: methods are registered and unregistered, and
messages are handled, whatever the callbacks do.  Nothing but the handling of a message changes the
life of the handler, and only by a `Milestone`: a successful `initialize`, a successful `shutdown`,
or an `exit` with any result.

* `Handler.Run.life_follows`: the milestones so far say where a handler is in its life, and whether
  its exit was clean.
* `Handler.life_of_run`: what moves a handler on, what it lets pass, and its exit code.
* `Handler.forward_of_run`: the life goes forward, unless a late `initialize` succeeds.
-/

namespace LanguageServer

/-! ## One message -/

/-- Callbacks do not touch the life of the handler. -/
theorem Activity.run_life {σ : Type} (hooks : Hooks σ) (cancelled : Bool) (a : Activity)
    (h : Handler) (w : σ) : (a.run hooks cancelled h w).2.1.life = h.life := by
  -- An act ends here, or goes on with a handler of the same life.
  fun_induction Activity.run hooks cancelled a h w <;> first | rfl | assumption

/-- The turning points in the life of a handler. -/
inductive Milestone where
  /-- An `initialize` has succeeded. -/
  | initialized
  /-- A `shutdown` has succeeded. -/
  | shutDown
  /-- An `exit` has been handled, with any result. -/
  | exited
deriving DecidableEq, Repr

/-- The turning point that the handling of a message is, if it is one. -/
def Handled.milestone? (method : String) : Handled → Option Milestone
  | .result r =>
    if method = Method.exit then some .exited
    else if r.isSuccess then
      if method = Method.initialization then some .initialized
      else if method = Method.shutdown then some .shutDown
      else none
    else none
  | .panicked _ | .stuck => none

/-- The milestone of a shutdown is one that succeeds. -/
theorem Handled.milestone?_eq_shutDown {method : String} {outcome : Handled} :
    outcome.milestone? method = some .shutDown ↔
      method = Method.shutdown ∧ ∃ r, outcome = .result r ∧ r.isSuccess = true := by
  have hexit : Method.shutdown ≠ Method.exit := by decide
  have hinit : Method.shutdown ≠ Method.initialization := by decide
  cases outcome with
  | result r => grind [milestone?]
  | panicked message | stuck => simp [milestone?]

/-- The life after a turning point. -/
def Lifecycle.pass (l : Lifecycle) : Option Milestone → Lifecycle
  | some .initialized => l.enter .initialized
  | some .shutDown => l.enter .shuttingDown
  | some .exited => l.enter .exited
  | none => l

/-- What a message leads to is what its milestone does. -/
theorem Lifecycle.after_eq_pass (l : Lifecycle) (method : String) (r : DispatchResult) :
    l.after method r = l.pass ((Handled.result r).milestone? method) := by
  simp only [after, Handled.milestone?]
  split
  case isTrue => rfl
  split
  case isFalse => rfl
  split
  case isTrue => rfl
  split <;> rfl

namespace Handler

variable {σ : Type} {hooks : Hooks σ} {h : Handler} {x : Context} {token : Bool} {w : σ}

/-- After a callback the life goes past the milestone of the message. -/
theorem conclude_life (method : String) (e : Ending × Handler × σ) :
    (conclude method e).2.1.life =
      e.2.1.life.pass ((conclude method e).1.milestone? method) := by
  obtain ⟨ending, g, v⟩ := e
  cases ending with
  | done result => exact Lifecycle.after_eq_pass ..
  | panicked message | stuck => rfl

/-- A message moves the handler on by its milestone, and by nothing else. -/
theorem handle_life (hooks : Hooks σ) (h : Handler) (x : Context) (token : Bool) (w : σ) :
    (h.handle hooks x token w).2.1.life =
      h.life.pass ((h.handle hooks x token w).1.milestone? x.method) := by
  cases hi : h.invocation? x token with
  | none =>
    obtain ⟨r, hr⟩ := handle_of_none hooks hi w
    rw [hr]
    exact Lifecycle.after_eq_pass ..
  | some activity =>
    rw [handle_of_some hooks hi, conclude_life, activity.run_life]

/-- Only `initialize` and `exit` have their callbacks run while the handler is not initialized. -/
theorem initialized_of_invocation? (hi : (h.invocation? x token).isSome = true)
    (hinit : x.method ≠ Method.initialization) (hexit : x.method ≠ Method.exit) :
    h.life.state = .initialized := by
  have hp : h.Passes x.method := by
    by_contra hp
    simp [invocation?, decide_of_not_passes token hp] at hi
  exact (hp.resolve_left hexit).resolve_left hinit

/-- Any other message is refused then. -/
theorem handle_of_not_initialized (hooks : Hooks σ) (hinit : x.method ≠ Method.initialization)
    (hexit : x.method ≠ Method.exit) (hs : h.life.state ≠ .initialized) (token : Bool) (w : σ) :
    h.invocation? x token = none ∧
      h.handle hooks x token w = (.result (.failure .notInitialized), h, w) := by
  have hp : ¬ h.Passes x.method := fun hp => hs ((hp.resolve_left hexit).resolve_left hinit)
  have hd := decide_of_not_passes token hp
  refine ⟨by simp [invocation?, hd], ?_⟩
  rw [handle_of_refuse hooks hd, finish_of_not_isSuccess hexit rfl]

end Handler

/-! ## What happens over time -/

/-- How far a state is on the way from the start to the end. -/
def LifecycleState.rank : LifecycleState → Nat
  | .uninitialized => 0
  | .initialized => 1
  | .shuttingDown => 2
  | .exited => 3

/-- No state is later than the end. -/
theorem LifecycleState.rank_le_exited (s : LifecycleState) : s.rank ≤ rank .exited := by
  cases s <;> decide

/-- Something that happens to a handler. -/
inductive Incident where
  | registered (method : String)
  | unregistered (method : String)
  | handled (method : String) (outcome : Handled)

/-- The turning point that an incident is, if it is one. -/
def Incident.milestone? : Incident → Option Milestone
  | .registered _ | .unregistered _ => none
  | .handled method outcome => outcome.milestone? method

/-- The turning points, in the order of time. -/
def Incident.milestones (past : List Incident) : List Milestone := past.filterMap milestone?

/-- One more incident passes at most one more milestone. -/
theorem Incident.milestones_concat (past : List Incident) (i : Incident) :
    milestones (past ++ [i]) = milestones past ++ i.milestone?.toList := by
  rw [milestones, List.filterMap_append]
  cases h : i.milestone? <;> simp [h, milestones]

/-- What can happen to a handler over time.  Callbacks may do anything, and each message may meet
another client. -/
inductive Handler.Run (start : Handler) : List Incident → Handler → Prop
  | start : Run start [] start
  | register {past : List Incident} {h : Handler} (method : String) (entry : Entry) :
    Run start past h → Run start (past ++ [.registered method]) (h.register method entry)
  | unregister {past : List Incident} {h : Handler} (method : String) :
    Run start past h → Run start (past ++ [.unregistered method]) (h.unregister method)
  | handle {past : List Incident} {h : Handler} {σ : Type} (hooks : Hooks σ) (x : Context)
      (token : Bool) (w : σ) :
    Run start past h →
    Run start (past ++ [.handled x.method (h.handle hooks x token w).1])
      (h.handle hooks x token w).2.1

/-- An exit was handled, and the last exit came right after a shutdown. -/
def Milestone.Clean (ms : List Milestone) : Prop :=
  ∃ before since, ms = before ++ .shutDown :: .exited :: since ∧ .exited ∉ since

/-- No `initialize` has succeeded after a shutdown or an exit. -/
def Milestone.Orderly (ms : List Milestone) : Prop :=
  ms.Pairwise fun earlier later => later = .initialized → earlier = .initialized

/-- Where a handler is after its last turning point. -/
def Milestone.state : Option Milestone → LifecycleState
  | none => .uninitialized
  | some .initialized => .initialized
  | some .shutDown => .shuttingDown
  | some .exited => .exited

namespace Milestone

variable {ms : List Milestone} {m : Milestone}

/-- There is no clean end without milestones. -/
theorem not_clean_nil : ¬ Clean [] := by
  rintro ⟨before, since, h, -⟩
  simp at h

/-- What comes after an exit does not make it clean, nor unclean. -/
theorem clean_append_of_ne (hm : m ≠ .exited) : Clean (ms ++ [m]) ↔ Clean ms := by
  constructor
  · rintro ⟨before, since, h, hs⟩
    -- The new milestone is the last one behind the exit, or there is none behind it.
    -- The last milestone is `exited`: in the given split, nothing may follow it.
    cases since using List.reverseRecOn with
    | nil =>
      have hlast := congrArg List.getLast? h
      simp [hm] at hlast
    | append_singleton since m' =>
      have hsplit : ms ++ [m] = (before ++ .shutDown :: .exited :: since) ++ [m'] := by
        simpa using h
      obtain ⟨hms, -⟩ := List.append_inj' hsplit rfl
      exact ⟨before, since, hms, fun hmem => hs (List.mem_append_left _ hmem)⟩
  · rintro ⟨before, since, rfl, hs⟩
    exact ⟨before, since ++ [m], by simp, by simp [hs, hm.symm]⟩

/-- An exit is clean right after a shutdown. -/
theorem clean_append_exited : Clean (ms ++ [.exited]) ↔ ms.getLast? = some .shutDown := by
  constructor
  · rintro ⟨before, since, h, hs⟩
    cases since using List.reverseRecOn with
    | nil =>
      have hsplit : ms ++ [.exited] = (before ++ [.shutDown]) ++ [.exited] := by simpa using h
      obtain ⟨rfl, -⟩ := List.append_inj' hsplit rfl
      simp
    | append_singleton since m =>
      have hsplit : ms ++ [.exited] = (before ++ .shutDown :: .exited :: since) ++ [m] := by
        simpa using h
      obtain ⟨-, hm⟩ := List.append_inj' hsplit rfl
      obtain rfl : Milestone.exited = m := by simpa using hm
      exact absurd (by simp) hs
  · intro h
    -- Then the exit follows the shutdown at once, and nothing comes after.
    obtain ⟨before, rfl⟩ := List.getLast?_eq_some_iff.1 h
    exact ⟨before, [], by simp, by simp⟩

end Milestone

/-- Where a handler is in its life comes from the turning points so far. -/
structure Lifecycle.Follows (l : Lifecycle) (ms : List Milestone) : Prop where
  state : l.state = Milestone.state ms.getLast?
  cleanExit : l.cleanExit = true ↔ Milestone.Clean ms

/-- One more milestone sets the state, and whether the end is clean. -/
theorem Lifecycle.Follows.pass {l : Lifecycle} {ms : List Milestone} (hl : l.Follows ms)
    (m : Option Milestone) : (l.pass m).Follows (ms ++ m.toList) := by
  cases m with
  | none => rwa [Option.toList_none, List.append_nil]
  | some m =>
    refine ⟨?_, ?_⟩
    · rw [Option.toList_some, List.getLast?_concat]
      cases m <;> rfl
    · cases m with
      | initialized | shutDown =>
        exact hl.cleanExit.trans (Milestone.clean_append_of_ne (by decide)).symm
      | exited =>
        -- An exit is clean when it follows a shutdown at once.
        have hclean : (l.enter .exited).cleanExit = true ↔ l.state = .shuttingDown := by
          simp [enter]
        refine (hclean.trans ?_).trans Milestone.clean_append_exited.symm
        rw [hl.state]
        cases ms.getLast? with
        | none => simp [Milestone.state]
        | some m => cases m <;> simp [Milestone.state]

namespace Handler.Run

variable {config : ServerConfig} {start h h' : Handler} {past later : List Incident}

/-- Two runs, one after the other, make one. -/
theorem trans (hp : Run start past h) (hl : Run h later h') : Run start (past ++ later) h' := by
  induction hl with
  | start => simpa using hp
  | register method entry _ ih => simpa using ih.register method entry
  | unregister method _ ih => simpa using ih.unregister method
  | handle hooks x token w _ ih => simpa using ih.handle hooks x token w

/-- The turning points so far say where a handler is in its life, and whether its exit was clean. -/
theorem life_follows (hr : Run (ofConfig config) past h) :
    h.life.Follows (Incident.milestones past) := by
  induction hr with
  | start => exact ⟨rfl, by simpa [ofConfig, Incident.milestones] using Milestone.not_clean_nil⟩
  | register method entry _ ih | unregister method _ ih =>
    rw [Incident.milestones_concat]
    exact ih.pass none
  | handle hooks x token w _ ih =>
    rw [Incident.milestones_concat, handle_life]
    exact ih.pass _

end Handler.Run

namespace Handler

variable {σ : Type} {hooks : Hooks σ} {h h' : Handler} {x : Context} {token : Bool} {w w' : σ}

/-- A `shutdown` succeeds from the initialized state only. -/
theorem initialized_of_shutDown
    (hm : (h.handle hooks x token w).1.milestone? x.method = some .shutDown) :
    h.life.state = .initialized := by
  obtain ⟨hmethod, r, hresult, hsuccess⟩ := Handled.milestone?_eq_shutDown.1 hm
  by_contra hs
  obtain ⟨-, hrefused⟩ := handle_of_not_initialized hooks (by rw [hmethod]; decide)
    (by rw [hmethod]; decide) hs token w
  rw [hrefused] at hresult
  cases hresult
  cases hsuccess

/-- The state after a message. -/
theorem state_of_handle {r : DispatchResult}
    (hh : h.handle hooks x token w = (.result r, h', w')) :
    h'.life.state =
      if x.method = Method.exit then .exited
      else if x.method = Method.initialization ∧ r.isSuccess = true then .initialized
      else if x.method = Method.shutdown ∧ r.isSuccess = true then .shuttingDown
      else h.life.state := by
  -- The state depends on the method and on whether there was success.
  have hlife : h'.life = h.life.after x.method r := by
    have hpass := handle_life hooks h x token w
    rwa [hh, ← Lifecycle.after_eq_pass] at hpass
  rw [hlife]
  grind [Lifecycle.after, Lifecycle.enter]

/-- A message takes a handler forward, unless it is an `initialize` that comes late and succeeds. -/
theorem rank_le_of_handle {ms : List Milestone} (hl : h.life.Follows ms) (hooks : Hooks σ)
    (x : Context) (token : Bool) (w : σ)
    (ho : Milestone.Orderly
      (ms ++ ((h.handle hooks x token w).1.milestone? x.method).toList)) :
    h.life.state.rank ≤ (h.handle hooks x token w).2.1.life.state.rank := by
  rw [handle_life]
  cases hm : (h.handle hooks x token w).1.milestone? x.method with
  | none => exact Nat.le_refl _
  | some m =>
    cases m with
    | exited => exact LifecycleState.rank_le_exited _
    | shutDown =>
      rw [initialized_of_shutDown hm]
      exact Nat.le_succ _
    | initialized =>
      -- The turning point before this one was no shutdown and no exit.
      rw [hl.state]
      cases hlast : ms.getLast? with
      | none => exact Nat.zero_le _
      | some last =>
        have hmem : last ∈ ms := List.mem_of_getLast? hlast
        rw [hm, Milestone.Orderly, Option.toList_some, List.pairwise_append] at ho
        rw [ho.2.2 last hmem .initialized (List.mem_singleton_self _) rfl]
        exact Nat.le_refl _

namespace Run

variable {config : ServerConfig} {start : Handler} {past later : List Incident}

/-- A run takes a handler forward, unless a late `initialize` succeeds. -/
theorem rank_le (hp : Run (ofConfig config) past h) (hl : Run h later h')
    (ho : Milestone.Orderly (Incident.milestones (past ++ later))) :
    h.life.state.rank ≤ h'.life.state.rank := by
  induction hl with
  | start => exact Nat.le_refl _
  | register method entry _ ih | unregister method _ ih =>
    rw [← List.append_assoc, Incident.milestones_concat] at ho
    exact ih (List.pairwise_append.1 ho).1
  | handle hooks x token w hr ih =>
    rw [← List.append_assoc, Incident.milestones_concat] at ho
    exact Nat.le_trans (ih (List.pairwise_append.1 ho).1)
      (rank_le_of_handle (hp.trans hr).life_follows hooks x token w ho)

end Run

variable {config : ServerConfig} {past : List Incident}

/-- An `initialize` of a client that says nothing of itself. -/
def exampleInitialize : Context where
  method := Method.initialization
  params := .object [("capabilities", .object [])]

/-- A new handler that was initialized and shut down. -/
def exampleShutDown : Handler := { ofConfig {} with life := { state := .shuttingDown } }

/-- What happened to it. -/
theorem run_exampleShutDown :
    ∃ past, Run (ofConfig {}) past exampleShutDown ∧
      Incident.milestones past = [.initialized, .shutDown] := by
  let hooks : Hooks Unit := .detached fun _ w => w
  have hnew : Run (ofConfig {}) [] (ofConfig {}) := .start
  have hfirst := hnew.handle hooks exampleInitialize false ()
  have hsecond := hfirst.handle hooks { method := Method.shutdown } false ()
  exact ⟨_, hsecond, by rfl⟩

/-- The life of a handler.  `exit` ends it with any result, a successful `initialize` or `shutdown`
moves it on, and nothing else does; a `shutdown` succeeds, and other callbacks are run, only while
the handler is initialized; and the exit code is zero if the last exit came right after a
shutdown. -/
theorem life_of_run (hr : Run (ofConfig config) past h) :
    (∀ (σ : Type) (hooks : Hooks σ) (x : Context) (token : Bool) (w w' : σ) (r : DispatchResult)
        (h' : Handler), h.handle hooks x token w = (.result r, h', w') →
      h'.life.state =
        (if x.method = Method.exit then .exited
        else if x.method = Method.initialization ∧ r.isSuccess = true then .initialized
        else if x.method = Method.shutdown ∧ r.isSuccess = true then .shuttingDown
        else h.life.state) ∧
      (x.method = Method.shutdown → r.isSuccess = true → h.life.state = .initialized)) ∧
    (∀ (x : Context) (token : Bool), x.method ≠ Method.initialization → x.method ≠ Method.exit →
      ((h.invocation? x token).isSome = true → h.life.state = .initialized) ∧
      (h.life.state ≠ .initialized → ∀ (σ : Type) (hooks : Hooks σ) (w : σ),
        h.handle hooks x token w = (.result (.failure .notInitialized), h, w))) ∧
    (h.life.exitCode = 0 ↔ ∃ before since : List Milestone,
      Incident.milestones past = before ++ .shutDown :: .exited :: since ∧ .exited ∉ since) := by
  refine ⟨fun σ hooks x token w w' r h' hh => ⟨state_of_handle hh, fun hm hs => ?_⟩,
    fun x token hinit hexit => ⟨fun hi => initialized_of_invocation? hi hinit hexit,
      fun hs σ hooks w => (handle_of_not_initialized hooks hinit hexit hs token w).2⟩, ?_⟩
  · have hmilestone : (h.handle hooks x token w).1.milestone? x.method = some .shutDown :=
      Handled.milestone?_eq_shutDown.2 ⟨hm, r, by rw [hh], hs⟩
    exact initialized_of_shutDown hmilestone
  · -- The code is zero when the end is clean.
    have hcode : h.life.exitCode = 0 ↔ h.life.cleanExit = true := by simp [Lifecycle.exitCode]
    exact hcode.trans hr.life_follows.cleanExit

/-- After the `exit` the exit code is zero. -/
theorem life_exampleShutDown :
    ∃ past h, Run (ofConfig {}) past h ∧ h.life.exitCode = 0 := by
  obtain ⟨past, hr, hpast⟩ := run_exampleShutDown
  let hooks : Hooks Unit := .detached fun _ w => w
  have hexit := hr.handle hooks { method := Method.exit } false ()
  obtain ⟨-, -, hcode⟩ := life_of_run hexit
  refine ⟨_, _, hexit, hcode.2 ⟨[.initialized], [], ?_, by simp⟩⟩
  rw [Incident.milestones_concat, hpast]
  rfl

/-- After a shutdown and after an exit every message is refused but `initialize` and `exit`, and an
`initialize` that fails leaves the handler where it is in its life.  So the life of a handler goes
forward and its end is final, unless a late `initialize` succeeds. -/
theorem forward_of_run (hr : Run (ofConfig config) past h) :
    (h.life.state = .shuttingDown ∨ h.life.state = .exited →
      ∀ (σ : Type) (hooks : Hooks σ) (x : Context) (token : Bool) (w : σ),
        x.method ≠ Method.exit →
        (x.method ≠ Method.initialization →
          h.invocation? x token = none ∧
            h.handle hooks x token w = (.result (.failure .notInitialized), h, w)) ∧
        ((∀ r, (h.handle hooks x token w).1 = .result r → r.isSuccess = false) →
          (h.handle hooks x token w).2.1.life = h.life)) ∧
    ∀ later h', Run h later h' → Milestone.Orderly (Incident.milestones (past ++ later)) →
      h.life.state.rank ≤ h'.life.state.rank ∧
        (h.life.state = .exited → h'.life.state = .exited) := by
  refine ⟨fun hlate σ hooks x token w hexit => ⟨fun hinit => ?_, fun hfailed => ?_⟩,
    fun later h' hl ho => ⟨hr.rank_le hl ho, fun hexited => ?_⟩⟩
  · -- Late states are not the initialized one, and all methods but two ask for that.
    have hs : h.life.state ≠ .initialized := by
      rcases hlate with hs | hs <;> rw [hs] <;> decide
    exact handle_of_not_initialized hooks hinit hexit hs token w
  · rw [handle_life]
    cases hh : (h.handle hooks x token w).1 with
    | result r => simp [Handled.milestone?, hexit, hfailed r hh, Lifecycle.pass]
    | panicked message | stuck => rfl
  · -- No state is later than the end, so that it stays.
    have hle := hr.rank_le hl ho
    rw [hexited] at hle
    cases hs : h'.life.state with
    | exited => rfl
    | uninitialized | initialized | shuttingDown =>
      rw [hs] at hle
      exact absurd hle (by decide)

/-- A `shutdown` that is repeated is refused. -/
theorem forward_exampleShutDown :
    exampleShutDown.handle (.detached fun entry notes => notes ++ [entry])
      { method := Method.shutdown } false [] =
        (.result (.failure .notInitialized), exampleShutDown, []) := by
  obtain ⟨past, hr, -⟩ := run_exampleShutDown
  obtain ⟨hlate, -⟩ := forward_of_run hr
  exact ((hlate (.inl rfl) _ _ { method := Method.shutdown } false [] (by decide)).1 (by decide)).2

/-- An `initialize` after the shutdown is not refused: its callback is run, it succeeds, and it
takes the handler back. -/
theorem initialized_exampleShutDown :
    (∃ past, Run (ofConfig {}) past exampleShutDown) ∧
      exampleShutDown.life.state = .shuttingDown ∧
      exampleInitialize.method ≠ Method.exit ∧
      (exampleShutDown.invocation? exampleInitialize false).isSome = true ∧
      ∃ result h', exampleShutDown.handle (.detached fun _ w => w) exampleInitialize false () =
          (.result (.success result), h', ()) ∧
        h'.life.state = .initialized ∧ h'.life.state.rank < exampleShutDown.life.state.rank := by
  obtain ⟨past, hr, -⟩ := run_exampleShutDown
  exact ⟨⟨past, hr⟩, rfl, by decide, rfl, _, _, rfl, rfl, by decide⟩

end Handler

end LanguageServer
