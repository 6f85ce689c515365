import LanguageServer.Proofs.Handler.CallFree
import LanguageServer.Proofs.Handler.Lifecycle

/-!
# What a failed message leaves behind

`Handler.Reached` are the handlers that come about as long as callbacks leave their handler alone:
methods are registered and unregistered, the owner sets the trace level, messages are handled.  What
an entry of such a handler can do to it is listed by `Entry.LeavesHandler.start_cases`: nothing, or
take over a trace level.

* `Handler.IsLeftAlone.handle_eq`: no message changes more than the life and the trace level.
* `Handler.unchanged_of_failure`: a failed message leaves the handler as it was, up to the one level
  that an `initialize` has it take over before its callback fails.
-/

namespace LanguageServer

/-! ## Callbacks that leave their handler alone -/

/-- Nothing that is done sets the trace level or changes which methods are handled. -/
inductive Activity.LeavesHandler : Activity → Prop
  | done (outcome : Outcome (Option LspAny)) : LeavesHandler (.done outcome)
  | panic (message : String) : LeavesHandler (.panic message)
  | note {next : Activity} (entry : Json) : LeavesHandler next → LeavesHandler (.note entry next)
  | notify {next : Outcome Unit → Activity} (method : String) (params : LspAny) :
    (∀ r, LeavesHandler (next r)) → LeavesHandler (.notify method params next)
  | call {next : Outcome LspAny → Activity} (method : String) (params : LspAny) :
    (∀ r, LeavesHandler (next r)) → LeavesHandler (.call method params next)
  | awaitCancelled {next : Activity} : LeavesHandler next → LeavesHandler (.awaitCancelled next)
  | askCancelled {next : Bool → Activity} :
    (∀ b, LeavesHandler (next b)) → LeavesHandler (.askCancelled next)
  | look {next : Outlook → Activity} : (∀ o, LeavesHandler (next o)) → LeavesHandler (.look next)

/-- Whatever comes after it, the act itself leaves the handler alone. -/
def Act.LeavesHandler {α : Type} (t : Act α) : Prop :=
  ∀ k : α → Activity, (∀ a, (k a).LeavesHandler) → (t k).LeavesHandler

/-- However it is invoked, the callback leaves its handler alone. -/
def Callback.LeavesHandler : Callback → Prop
  | .request _ _ f => ∀ x params, (f x params).LeavesHandler
  | .notification _ f => ∀ x params, (f x params).LeavesHandler
  | .initialization f => ∀ x params offered, (f x params offered).LeavesHandler

/-- A callback that gets the answer to offer is one for `initialize`; others are for any method. -/
def Callback.Fits (method : String) : Callback → Prop
  | .request _ _ _ | .notification _ _ => True
  | .initialization _ => method = Method.initialization

/-- What a method has as long as callbacks leave their handler alone: a callback, or the entry of
`Handler.withTrace`. -/
inductive Entry.LeavesHandler : String → Entry → Prop
  | callback {method : String} (callback : Callback) :
    callback.Fits method → callback.LeavesHandler → LeavesHandler method callback.entry
  | setTrace : LeavesHandler Method.setTrace .setTrace

/-- The handler is left as it is. -/
theorem Activity.LeavesHandler.run_handler {σ : Type} (hooks : Hooks σ) (cancelled : Bool)
    {a : Activity} (ha : a.LeavesHandler) (h : Handler) (w : σ) :
    (a.run hooks cancelled h w).2.1 = h := by
  induction ha generalizing w with
  | done outcome | panic message => rfl
  | note entry _ ih => exact ih _
  | notify method params _ ih | call method params _ ih => exact ih _ _
  | look _ ih | askCancelled _ ih => exact ih _ _
  -- Nobody cancels it: what waits for that has an end only when cancelled before.
  | awaitCancelled _ ih =>
    rw [Activity.run]
    split
    · exact ih _
    · rfl

namespace Act

variable {α β : Type}

/-- Doing nothing leaves the handler alone. -/
theorem leavesHandler_pure (a : α) : (pure a : Act α).LeavesHandler := fun _ hk => hk a

/-- Looking at the handler leaves it alone. -/
theorem leavesHandler_look : look.LeavesHandler := fun _ hk => .look hk

/-- One thing after another leaves the handler alone when both do. -/
theorem LeavesHandler.bind {t : Act α} {f : α → Act β} (ht : t.LeavesHandler)
    (hf : ∀ a, (f a).LeavesHandler) : (t >>= f).LeavesHandler :=
  fun k hk => ht _ fun a => hf a k hk

/-- A result is written, or the error stays. -/
theorem LeavesHandler.toActivity {t : Act (Outcome α)} (ht : t.LeavesHandler)
    (f : α → Outcome (Option LspAny)) :
    (t.andThen fun a => pure (f a)).toActivity.LeavesHandler := by
  refine ht.bind (fun r => ?_) _ .done
  cases r with
  | ok a => exact leavesHandler_pure _
  | error e => exact leavesHandler_pure _

end Act

/-- Parameters that are not refused decode. -/
theorem Entry.reads_of_start {π : Type} {p : Codec π}
    {f : Context → π → Act (Outcome (Option LspAny))} {x : Context} {a : Activity}
    (hs : (decoding p f).start x = .ok a) :
    ∃ params, x.Reads p params ∧ a = (f x params).toActivity := by
  rcases x.reads_or_refuses p with ⟨params, hp⟩ | ⟨e, he⟩
  · rw [start_of_reads hp, Except.ok.injEq] at hs
    exact ⟨params, hp, hs.symm⟩
  · simp [start_of_refuses he] at hs

/-- What is done to the handler, if anything: `$/setTrace` takes over a level and succeeds, and
`initialize` takes over the level of its parameters before its callback is run. -/
theorem Entry.LeavesHandler.start_cases {method : String} {entry : Entry} {x : Context}
    {a : Activity} (he : entry.LeavesHandler method) (hs : entry.start x = .ok a) :
    a.LeavesHandler ∨
    (method = Method.setTrace ∧ ∃ level, a = .setTrace level (.done (.ok none))) ∨
    (method = Method.initialization ∧ ∃ f params level next, entry = .initialization f ∧
      x.Reads InitializeParams.codec params ∧ params.trace = some level ∧
      a = .setTrace level next ∧ next.LeavesHandler) := by
  cases he with
  | setTrace =>
    obtain ⟨params, -, rfl⟩ := reads_of_start hs
    exact .inr (.inl ⟨rfl, params.value, rfl⟩)
  | callback callback hm hc =>
    cases callback with
    | request p write f =>
      obtain ⟨params, -, rfl⟩ := reads_of_start hs
      exact .inl ((hc x params).toActivity _)
    | notification p f =>
      obtain ⟨params, -, rfl⟩ := reads_of_start hs
      exact .inl ((hc x params).toActivity _)
    | initialization f =>
      obtain ⟨params, hp, rfl⟩ := reads_of_start hs
      have hlook : Act.LeavesHandler (do
          let outlook ← Act.look
          f x params (outlook.initializeResult params)) :=
        Act.leavesHandler_look.bind fun outlook => hc x params _
      have hrest := hlook.toActivity fun r => .ok (some (.ofTyped InitializeResult.codec r))
      -- The level is taken over before the function is called, if the client names one.
      cases htrace : params.trace with
      | none =>
        refine .inl ?_
        simp only [htrace]
        exact hrest
      | some level =>
        refine .inr (.inr ⟨hm, f, params, level, _, rfl, hp, htrace, ?_, hrest⟩)
        simp only [htrace]
        rfl

/-! ## Handlers whose callbacks leave them alone -/

namespace Handler

/-- The handlers that come about as long as callbacks leave their handler alone. -/
inductive Reached (config : ServerConfig) : Handler → Prop
  | new : Reached config (ofConfig config)
  | withTrace {h : Handler} : Reached config h → Reached config h.withTrace
  | register {h : Handler} {method : String} (callback : Callback) :
    callback.Fits method → callback.LeavesHandler → Reached config h →
    Reached config (h.register method callback.entry)
  | unregister {h : Handler} (method : String) :
    Reached config h → Reached config (h.unregister method)
  | setTrace {h : Handler} (level : TraceValue) :
    Reached config h → Reached config { h with trace := level }
  | handle {h : Handler} {σ : Type} (hooks : Hooks σ) (x : Context) (token : Bool) (w : σ) :
    Reached config h → Reached config (h.handle hooks x token w).2.1

/-- All callbacks leave the handler alone. -/
def IsLeftAlone (h : Handler) : Prop :=
  ∀ method entry, h.entries.get? method = some entry → entry.LeavesHandler method

/-- Handling the message has the handler take over a trace level from the parameters of an
`initialize`, whatever its callback comes to. -/
def TakesOver (h : Handler) (x : Context) (token : Bool) (level : TraceValue) : Prop :=
  x.method = Method.initialization ∧
    ∃ f params, h.entries.get? x.method = some (.initialization f) ∧
      (h.invocation? x token).isSome = true ∧ x.Reads InitializeParams.codec params ∧
      params.trace = some level

variable {config : ServerConfig} {σ : Type} {hooks : Hooks σ} {h h' : Handler} {x : Context}
  {token : Bool} {w w' : σ} {r : DispatchResult}

/-- A handler is still left alone when the new entry does so. -/
theorem IsLeftAlone.register {method : String} {entry : Entry} (hl : h.IsLeftAlone)
    (he : entry.LeavesHandler method) : (h.register method entry).IsLeftAlone := by
  intro m e hm
  rw [Handler.register, Dictionary.get?_insert] at hm
  split at hm
  case isTrue heq => rwa [← heq, ← Option.some.inj hm]
  case isFalse => exact hl m e hm

/-- A handler is still left alone when an entry is taken out. -/
theorem IsLeftAlone.unregister (hl : h.IsLeftAlone) (method : String) :
    (h.unregister method).IsLeftAlone := by
  intro m e hm
  rw [Handler.unregister, Dictionary.get?_erase] at hm
  split at hm
  · simp at hm
  · exact hl m e hm

/-- The entries of a new handler leave it alone, apart from the level. -/
theorem isLeftAlone_ofConfig (config : ServerConfig) : (ofConfig config).IsLeftAlone := by
  intro method entry he
  have hmem := Members.mem_of_get?_ofList he
  simp only [List.mem_cons, List.not_mem_nil, or_false, Prod.mk.injEq] at hmem
  rcases hmem with ⟨rfl, rfl⟩ | ⟨rfl, rfl⟩
  · exact .callback (.initialization fun _ _ offered => pure (.ok offered)) rfl
      fun _ _ _ => Act.leavesHandler_pure _
  · exact .callback (.request _ _ fun _ _ => pure (.ok ())) trivial
      fun _ _ => Act.leavesHandler_pure _

/-- What is run for a message is what the entry of its method says. -/
theorem start_of_invocation? {a : Activity} (hi : h.invocation? x token = some a) :
    ∃ entry, h.entries.get? x.method = some entry ∧ entry.start x = .ok a := by
  rw [invocation?, decide] at hi
  cases hd : h.lookUp x.method with
  | refuse r => simp [hd] at hi
  | handle entry =>
    refine ⟨entry, get?_of_lookUp hd, ?_⟩
    simp only [hd] at hi
    -- A message that is refused invokes nothing.
    cases hr : x.isRefused token with
    | true => simp [hr] at hi
    | false =>
      cases hs : entry.start x with
      | error e => simp [hr, hs, Except.toOption] at hi
      | ok b => simpa [hr, hs, Except.toOption] using hi

/-- The level is taken over before anything else is done. -/
theorem TakesOver.invocation?_eq {level : TraceValue} (ht : h.TakesOver x token level) :
    ∃ next, h.invocation? x token = some (.setTrace level next) := by
  obtain ⟨-, f, params, he, hi, hp, htrace⟩ := ht
  obtain ⟨a, ha⟩ := Option.isSome_iff_exists.1 hi
  obtain ⟨entry, he', hs⟩ := start_of_invocation? ha
  obtain rfl : Entry.initialization f = entry := Option.some.inj (he.symm.trans he')
  have hstart := Except.ok.inj ((Entry.start_of_reads hp).symm.trans hs)
  rw [ha, ← hstart]
  simp only [htrace]
  exact ⟨_, rfl⟩

/-- What a callback leaves behind in the handler: no change, the level that a successful
`$/setTrace` asks for, or the one that an `initialize` has it take over. -/
theorem IsLeftAlone.run_cases (hl : h.IsLeftAlone) {a : Activity}
    (hi : h.invocation? x token = some a) (hooks : Hooks σ) (cancelled : Bool) (w : σ) :
    ((a.run hooks cancelled h w).2.1 = h ∧ ∀ level, ¬ h.TakesOver x token level) ∨
    (∃ level, a.run hooks cancelled h w = (.done (.ok none), { h with trace := level }, w)) ∨
    ∃ level, h.TakesOver x token level ∧
      (a.run hooks cancelled h w).2.1 = { h with trace := level } := by
  obtain ⟨entry, he, hs⟩ := start_of_invocation? hi
  rcases (hl _ _ he).start_cases hs with ha | ⟨-, level, rfl⟩ |
    ⟨hm, f, params, level, next, rfl, hp, htrace, rfl, hnext⟩
  · refine .inl ⟨ha.run_handler hooks cancelled h w, fun level ht => ?_⟩
    obtain ⟨next, hi'⟩ := ht.invocation?_eq
    -- An activity that takes over a level does not leave the handler alone.
    obtain rfl : a = .setTrace level next := Option.some.inj (hi.symm.trans hi')
    cases ha
  · exact .inr (.inl ⟨level, rfl⟩)
  · exact .inr (.inr ⟨level, ⟨hm, f, params, he, by rw [hi]; rfl, hp, htrace⟩,
      hnext.run_handler hooks cancelled _ w⟩)

/-- A message may move the handler on and set its trace level, but nothing else. -/
theorem IsLeftAlone.handle_eq (hl : h.IsLeftAlone) (hooks : Hooks σ) (x : Context) (token : Bool)
    (w : σ) : ∃ life trace, (h.handle hooks x token w).2.1 = { h with life, trace } := by
  -- Concluding touches the life of the handler only.
  have hconclude (e : Ending × Handler × σ) :
      ∃ life, (conclude x.method e).2.1 = { e.2.1 with life } := by
    obtain ⟨ending, g, v⟩ := e
    cases ending with
    | done outcome => exact ⟨_, rfl⟩
    | panicked message | stuck => exact ⟨g.life, rfl⟩
  cases hi : h.invocation? x token with
  | none =>
    obtain ⟨r, hr⟩ := handle_of_none hooks hi w
    rw [hr]
    exact ⟨_, h.trace, rfl⟩
  | some a =>
    rw [handle_of_some hooks hi]
    obtain ⟨life, hlife⟩ := hconclude (a.run hooks (x.isCancelled token) h w)
    rw [hlife]
    rcases hl.run_cases hi hooks (x.isCancelled token) w with ⟨hrun, -⟩ | ⟨level, hrun⟩ |
      ⟨level, -, hrun⟩
    · exact ⟨life, h.trace, by rw [hrun]⟩
    · exact ⟨life, level, by rw [hrun]⟩
    · exact ⟨life, level, by rw [hrun]⟩

/-- A handler that was reached in this way is left alone. -/
theorem Reached.isLeftAlone (hh : Reached config h) : h.IsLeftAlone := by
  induction hh with
  | new => exact isLeftAlone_ofConfig config
  | withTrace _ ih => exact ih.register .setTrace
  | register callback hm hc _ ih => exact ih.register (.callback callback hm hc)
  | unregister method _ ih => exact ih.unregister method
  | setTrace level _ ih => exact ih
  | handle hooks x token w _ ih =>
    obtain ⟨life, trace, he⟩ := ih.handle_eq hooks x token w
    rw [he]
    exact ih

/-! ## Failures -/

/-- A callback that has failed leaves behind what its run has left. -/
theorem conclude_of_not_isSuccess {method : String} {e : Ending × Handler × σ}
    (hexit : method ≠ Method.exit) (he : conclude method e = (.result r, h', w'))
    (hfail : r.isSuccess = false) : h' = e.2.1 ∧ e.1 ≠ .done (.ok none) := by
  obtain ⟨ending, g, v⟩ := e
  cases ending with
  | done outcome =>
    simp only [conclude, Prod.mk.injEq, Handled.result.injEq] at he
    obtain ⟨rfl, rfl, rfl⟩ := he
    -- A callback that ends with nothing has succeeded.
    refine ⟨finish_of_not_isSuccess hexit hfail, fun hdone => ?_⟩
    rw [Ending.done.inj hdone] at hfail
    cases hfail
  | panicked message | stuck => simp [conclude] at he

/-- Either nothing changes, or one trace level is taken over. -/
theorem IsLeftAlone.failure_cases (hl : h.IsLeftAlone) (hexit : x.method ≠ Method.exit)
    (hr : h.handle hooks x token w = (.result r, h', w')) (hfail : r.isSuccess = false) :
    (h' = h ∧ ∀ level, ¬ h.TakesOver x token level) ∨
      ∃ level, h.TakesOver x token level ∧ h' = { h with trace := level } := by
  cases hi : h.invocation? x token with
  | none =>
    obtain ⟨r', hr'⟩ := handle_of_none hooks hi w
    rw [hr', Prod.mk.injEq, Prod.mk.injEq, Handled.result.injEq] at hr
    obtain ⟨rfl, rfl, -⟩ := hr
    refine .inl ⟨finish_of_not_isSuccess hexit hfail, fun level ht => ?_⟩
    obtain ⟨next, hi'⟩ := ht.invocation?_eq
    simp [hi] at hi'
  | some a =>
    rw [handle_of_some hooks hi] at hr
    obtain ⟨rfl, hdone⟩ := conclude_of_not_isSuccess hexit hr hfail
    rcases hl.run_cases hi hooks (x.isCancelled token) w with hnone | ⟨level, hrun⟩ | hover
    · exact .inl hnone
    · -- Setting the level on demand never fails.
      exact absurd (by rw [hrun]) hdone
    · exact .inr hover

/-- An `initialize` asks for one level. -/
theorem TakesOver.unique {level level' : TraceValue} (ht : h.TakesOver x token level)
    (ht' : h.TakesOver x token level') : level = level' := by
  obtain ⟨next, hi⟩ := ht.invocation?_eq
  obtain ⟨next', hi'⟩ := ht'.invocation?_eq
  exact (Activity.setTrace.inj (Option.some.inj (hi.symm.trans hi'))).1

/-- A failed message leaves the handler as it was, whether it was refused, its parameters did not
decode, or its callback or the writing of the result failed.  There is one exception: an
`initialize` whose callback fails has had the handler take over the trace level of its parameters,
and nothing else. -/
theorem unchanged_of_failure (hh : Reached config h) (hexit : x.method ≠ Method.exit)
    (hr : h.handle hooks x token w = (.result r, h', w')) (hfail : r.isSuccess = false) :
    h'.life = h.life ∧ h'.life.exitCode = h.life.exitCode ∧ h'.entries = h.entries ∧
      ((∀ level, ¬ h.TakesOver x token level) → h' = h) ∧
      ∀ level, h.TakesOver x token level → h' = { h with trace := level } := by
  rcases hh.isLeftAlone.failure_cases hexit hr hfail with ⟨rfl, hnone⟩ | ⟨level, ht, rfl⟩
  · exact ⟨rfl, rfl, rfl, fun _ => rfl, fun level ht => absurd ht (hnone level)⟩
  · refine ⟨rfl, rfl, rfl, fun hnone => absurd ht (hnone level), fun level' ht' => ?_⟩
    rw [ht.unique ht']

/-- A callback for `initialize` that always fails. -/
def exampleRefusal : Callback :=
  .initialization fun _ _ _ => pure (.error (.other "no"))

/-- An `initialize` of a client that wants to be told everything. -/
def exampleVerbose : Context where
  method := Method.initialization
  params := .object [("capabilities", .object []), ("trace", .string "verbose")]

/-- The handler is reached by a registration. -/
theorem reached_exampleRefusal :
    Reached {} ((ofConfig {}).register Method.initialization exampleRefusal.entry) :=
  .register exampleRefusal rfl (fun _ _ _ => Act.leavesHandler_pure _) .new

/-- After the failure the handler is as it was, up to the trace level. -/
theorem unchanged_exampleRefusal :
    let h := (ofConfig {}).register Method.initialization exampleRefusal.entry
    (h.handle (.detached fun _ w => w) exampleVerbose false ()).2.1 =
      { h with trace := .verbose } := by
  intro h
  have hr : h.handle (.detached fun _ w => w) exampleVerbose false () =
    (.result (.failure (.other "no")), _, ()) := rfl
  obtain ⟨-, -, -, -, hover⟩ := unchanged_of_failure reached_exampleRefusal (by decide) hr rfl
  exact hover .verbose ⟨rfl, fun _ _ _ => pure (.error (.other "no")), _, by rfl, by rfl,
    .given (by rfl), by rfl⟩

/-- A failed `initialize` leaves the trace level changed. -/
theorem changed_exampleRefusal :
    let h := (ofConfig {}).register Method.initialization exampleRefusal.entry
    Reached {} h ∧ exampleVerbose.method ≠ Method.exit ∧ h.trace = .off ∧
      ∃ r h', h.handle (.detached fun _ w => w) exampleVerbose false () = (.result r, h', ()) ∧
        r.isSuccess = false ∧ h'.trace = .verbose :=
  ⟨reached_exampleRefusal, by decide, rfl, _, _, rfl, rfl, rfl⟩

end Handler

end LanguageServer
