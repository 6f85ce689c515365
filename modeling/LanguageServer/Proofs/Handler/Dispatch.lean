import LanguageServer.Handler.Run

/-!
# The decision over a message

`Handler.invocation?` is the callback that the handling of a message invokes, if it invokes one.
`Handler.handle_of_some` says that it is run once, and `Handler.handle_of_none` that nothing at all
happens without it but that the message is refused.

A `Callback` is what a user registers; `Callback.Returns` says what it comes to on a message, with
the parameters that it gets, and `Handler.handle_callback` puts everything together: when the
callback of a method is invoked, what becomes of its result, and what becomes of a message whose
callback is not invoked.
-/

namespace LanguageServer

/-! ## Parameters -/

namespace Context

variable {α : Type}

/-- The parameters decode as a value.  Null that does not decode counts as an empty object. -/
inductive Reads (c : Codec α) (x : Context) : α → Prop
  | given {a : α} : c.ofJson x.params = .ok a → Reads c x a
  | absent {a : α} {e : DecodeError} : x.params = .null → c.ofJson x.params = .error e →
    c.ofJson (.object []) = .ok a → Reads c x a

/-- The parameters do not decode, as they stand or as an empty object; the error is about the
parameters as they stand. -/
def Refuses (c : Codec α) (x : Context) (e : DecodeError) : Prop :=
  c.ofJson x.params = .error e ∧ (x.params = .null → ∃ e', c.ofJson (.object []) = .error e')

variable {c : Codec α} {x : Context}

/-- Parameters that are read decode. -/
theorem Reads.decodeParams_eq {a : α} (h : x.Reads c a) : x.decodeParams c = .ok a := by
  cases h with
  | given hp => simp only [decodeParams, hp]
  | absent hn hp ho =>
    have hnull : x.params.isNull = true := by rw [hn]; rfl
    simp only [decodeParams, hp, hnull, if_true, ho]
    rfl

/-- Parameters that are refused do not decode, and the error says why. -/
theorem Refuses.decodeParams_eq {e : DecodeError} (h : x.Refuses c e) :
    x.decodeParams c = .error (.ofDecode e) := by
  obtain ⟨hp, ho⟩ := h
  simp only [decodeParams, hp]
  cases hj : x.params with
  | null =>
    -- An empty object does not decode either, but the first error is the one that counts.
    obtain ⟨e', he⟩ := ho hj
    simp only [Json.isNull, if_true, he]
    rfl
  | bool _ | number _ | string _ | array _ | object _ => rfl

/-- Parameters decode, or there is an error. -/
theorem reads_or_refuses (c : Codec α) (x : Context) :
    (∃ a, x.Reads c a) ∨ ∃ e, x.Refuses c e := by
  cases hp : c.ofJson x.params with
  | ok a => exact .inl ⟨a, .given hp⟩
  | error e =>
    by_cases hn : x.params = .null
    · cases ho : c.ofJson (.object []) with
      | ok a => exact .inl ⟨a, .absent hn hp ho⟩
      | error e' => exact .inr ⟨e, hp, fun _ => ⟨e', ho⟩⟩
    · exact .inr ⟨e, hp, fun h => absurd h hn⟩

end Context

/-! ## Callbacks -/

/-- An act comes to a value: whatever comes after it goes on with the value, from where the act has
left the handler and the client. -/
def Act.Yields {σ α : Type} (hooks : Hooks σ) (cancelled : Bool) (t : Act α) (h : Handler) (w : σ)
    (a : α) (h' : Handler) (w' : σ) : Prop :=
  ∀ k : α → Activity, (t k).run hooks cancelled h w = (k a).run hooks cancelled h' w'

/-- A callback, with the types that it was registered for. -/
inductive Callback : Type 1 where
  /-- Its result is the answer, if it can be written. -/
  | request {π ρ : Type} (params : Codec π) (write : ρ → Outcome LspAny)
      (f : Context → π → Act (Outcome ρ))
  /-- It has no result. -/
  | notification {π : Type} (params : Codec π) (f : Context → π → Act (Outcome Unit))
  /-- It gets the answer that would be given without it. -/
  | initialization
      (f : Context → InitializeParams → InitializeResult → Act (Outcome InitializeResult))

/-- The handler that tells as much of its doings as the client asks for, if it does. -/
def Handler.tracing (level : Option TraceValue) (h : Handler) : Handler :=
  match level with
  | some level => { h with trace := level }
  | none => h

namespace Callback

/-- What is done with a message that the callback gets. -/
def entry : Callback → Entry
  | .request params write f => .answering params write f
  | .notification params f => .notification params f
  | .initialization f => .initialization f

/-- The parameters of a message decode as the callback wants them. -/
def Accepts (x : Context) : Callback → Prop
  | .request params _ _ => ∃ a, x.Reads params a
  | .notification params _ => ∃ a, x.Reads params a
  | .initialization _ => ∃ a, x.Reads InitializeParams.codec a

/-- The parameters of a message do not decode. -/
def Refuses (x : Context) (e : DecodeError) : Callback → Prop
  | .request params _ _ => x.Refuses params e
  | .notification params _ => x.Refuses params e
  | .initialization _ => x.Refuses InitializeParams.codec e

/-- Invoked once, on the parameters of a message, the callback comes to an outcome. -/
inductive Returns {σ : Type} (hooks : Hooks σ) (cancelled : Bool) (x : Context) (h : Handler)
    (w : σ) : Callback → Outcome (Option LspAny) → Handler → σ → Prop
  | request {π ρ : Type} {params : Codec π} {write : ρ → Outcome LspAny}
      {f : Context → π → Act (Outcome ρ)} {a : π} {result : Outcome ρ} {h' : Handler} {w' : σ} :
    x.Reads params a → (f x a).Yields hooks cancelled h w result h' w' →
    Returns hooks cancelled x h w (.request params write f)
      (result.bind fun r => (write r).map some) h' w'
  | notification {π : Type} {params : Codec π} {f : Context → π → Act (Outcome Unit)} {a : π}
      {result : Outcome Unit} {h' : Handler} {w' : σ} :
    x.Reads params a → (f x a).Yields hooks cancelled h w result h' w' →
    Returns hooks cancelled x h w (.notification params f) (result.map fun _ => none) h' w'
  | initialization
      {f : Context → InitializeParams → InitializeResult → Act (Outcome InitializeResult)}
      {a : InitializeParams} {result : Outcome InitializeResult} {h' : Handler} {w' : σ} :
    x.Reads InitializeParams.codec a →
    (f x a ((h.tracing a.trace).outlook.initializeResult a)).Yields hooks cancelled
      (h.tracing a.trace) w result h' w' →
    Returns hooks cancelled x h w (.initialization f)
      (result.map fun r => some (.ofTyped InitializeResult.codec r)) h' w'

end Callback

namespace Act.Yields

variable {σ α β : Type} {hooks : Hooks σ} {cancelled : Bool} {h h' : Handler} {w w' : σ}

/-- An act whose value is written as a result. -/
theorem run_andThen {t : Act (Outcome α)} {result : Outcome α} {f : α → Outcome (Option LspAny)}
    (ht : t.Yields hooks cancelled h w result h' w') :
    ((t.andThen fun a => pure (f a)).toActivity).run hooks cancelled h w =
      (.done (result.bind f), h', w') :=
  (ht _).trans (by cases result <;> rfl)

/-- Taking over a trace level and looking at the handler come before anything else. -/
theorem tracing_look {level : Option TraceValue} {f : Outlook → Act α} {a : α}
    (ht : (f (h.tracing level).outlook).Yields hooks cancelled (h.tracing level) w a h' w') :
    Act.Yields hooks cancelled
      (do
        match level with
        | some level => Act.setTrace level
        | none => pure ()
        let outlook ← Act.look
        f outlook) h w a h' w' := by
  intro k
  rw [← ht k]
  -- Setting the level and looking are the two first steps of the act.
  cases level <;> rfl

end Act.Yields

namespace Entry

variable {π : Type} {p : Codec π} {f : Context → π → Act (Outcome (Option LspAny))} {x : Context}

/-- An entry starts with the parameters that it has read. -/
theorem start_of_reads {a : π} (h : x.Reads p a) :
    (decoding p f).start x = .ok (f x a).toActivity := by
  show (x.decodeParams p).map _ = _
  rw [h.decodeParams_eq]
  rfl

/-- An entry does not start with parameters that are refused. -/
theorem start_of_refuses {e : DecodeError} (h : x.Refuses p e) :
    (decoding p f).start x = .error (.ofDecode e) := by
  show (x.decodeParams p).map _ = _
  rw [h.decodeParams_eq]
  rfl

end Entry

namespace Callback

variable {σ : Type} {hooks : Hooks σ} {cancelled : Bool} {x : Context} {h h' : Handler} {w w' : σ}
  {callback : Callback}

/-- Parameters that are accepted have the callback invoked. -/
theorem Accepts.start_eq (hx : callback.Accepts x) :
    ∃ activity, callback.entry.start x = .ok activity := by
  cases callback with
  | request _ _ _ | notification _ _ | initialization _ =>
    obtain ⟨a, ha⟩ := hx
    exact ⟨_, Entry.start_of_reads ha⟩

/-- Parameters that are refused have nothing done. -/
theorem Refuses.start_eq {e : DecodeError} (hx : callback.Refuses x e) :
    callback.entry.start x = .error (.ofDecode e) := by
  cases callback with
  | request _ _ _ | notification _ _ | initialization _ => exact Entry.start_of_refuses hx

/-- Parameters are accepted or refused. -/
theorem accepts_or_refuses (callback : Callback) (x : Context) :
    callback.Accepts x ∨ ∃ e, callback.Refuses x e := by
  cases callback with
  | request _ _ _ | notification _ _ | initialization _ => exact x.reads_or_refuses _

/-- An invocation is one run of what the entry of the callback says. -/
theorem Returns.run_eq {outcome : Outcome (Option LspAny)}
    (hr : callback.Returns hooks cancelled x h w outcome h' w') :
    ∃ activity, callback.entry.start x = .ok activity ∧
      activity.run hooks cancelled h w = (.done outcome, h', w') := by
  cases hr with
  | request ha hy => exact ⟨_, Entry.start_of_reads ha, hy.run_andThen⟩
  | @notification _ _ _ _ result _ _ ha hy =>
    refine ⟨_, Entry.start_of_reads ha, ?_⟩
    rw [hy.run_andThen]
    cases result <;> rfl
  | @initialization f a result _ _ ha hy =>
    -- The act of the entry sets the level and looks before the callback gets the result to offer.
    have ht := Act.Yields.tracing_look (f := fun outlook => f x a (outlook.initializeResult a)) hy
    refine ⟨_, Entry.start_of_reads ha, ht.run_andThen.trans ?_⟩
    cases result <;> rfl

end Callback

/-! ## The decision -/

/-- Messages of a method pass: the two that always do, or any as long as the server is
initialized. -/
def Handler.Passes (h : Handler) (method : String) : Prop :=
  method = Method.exit ∨ method = Method.initialization ∨ h.life.state = .initialized

/-- A message is still to be handled when its turn comes: only a request can be given up, and `exit`
never is. -/
def Context.IsDue (x : Context) (token : Bool) : Prop :=
  x.method = Method.exit ∨ x.id = none ∨ x.isCancelled token = false

/-- Two methods are always admitted, all others once the server is initialized. -/
theorem Lifecycle.admits_iff (l : Lifecycle) (method : String) :
    l.admits method = true ↔
      method = Method.exit ∨ method = Method.initialization ∨ l.state = .initialized := by
  simp only [admits, Method.isUngated, Method.ungated, Bool.or_eq_true, beq_iff_eq,
    List.contains_cons, List.contains_nil, or_false, Bool.false_eq_true]
  rw [or_assoc, or_left_comm]

/-- A message that is due is not refused. -/
theorem Context.isRefused_eq_false_iff (x : Context) (token : Bool) :
    x.isRefused token = false ↔ x.IsDue token := by
  simp only [isRefused, isNotification, IsDue, Bool.and_eq_false_iff, Bool.not_eq_false',
    bne_eq_false_iff_eq, Option.isNone_iff_eq_none]
  rw [or_assoc, or_left_comm]

/-- A refusal changes nothing, unless it is an answer to `exit`. -/
theorem Lifecycle.after_of_not_isSuccess {l : Lifecycle} {method : String} {r : DispatchResult}
    (hm : method ≠ Method.exit) (hr : r.isSuccess = false) : l.after method r = l := by
  simp [after, hm, hr]

namespace Handler

/-- The callback that the handling of a message invokes, as an activity, if it invokes one. -/
def invocation? (h : Handler) (x : Context) (token : Bool) : Option Activity :=
  match h.decide x token with
  | .refuse _ => none
  | .handle entry => (entry.start x).toOption

/-- What is left to do when the callback for a message has ended. -/
def conclude {σ : Type} (method : String) : Ending × Handler × σ → Handled × Handler × σ
  | (.done outcome, h, w) => (.result (.ofOutcome outcome), h.finish method (.ofOutcome outcome), w)
  | (.panicked message, h, w) => (.panicked message, h, w)
  | (.stuck, h, w) => (.stuck, h, w)

variable {σ : Type} {h : Handler} {x : Context} {token : Bool} {entry : Entry}

/-- There is no entry for a method that is not known. -/
theorem get?_eq_none_iff (h : Handler) (method : String) :
    h.entries.get? method = none ↔ method ∉ h.methods :=
  Members.get?_eq_none_iff

/-- A message that fails finishes nothing, unless it is an `exit`. -/
theorem finish_of_not_isSuccess {method : String} {r : DispatchResult} (hm : method ≠ Method.exit)
    (hr : r.isSuccess = false) : h.finish method r = h := by
  rw [finish, Lifecycle.after_of_not_isSuccess hm hr]

/-- A message that passes and is due is left to its entry. -/
theorem decide_of_handles (he : h.entries.get? x.method = some entry) (hp : h.Passes x.method)
    (hd : x.IsDue token) : h.decide x token = .handle entry := by
  have ha := (h.life.admits_iff x.method).2 hp
  have hr := (x.isRefused_eq_false_iff token).2 hd
  simp [decide, lookUp, he, ha, hr]

/-- A message that passes, but is not due any more, counts as cancelled. -/
theorem decide_of_not_due (he : h.entries.get? x.method = some entry) (hp : h.Passes x.method)
    (hd : ¬ x.IsDue token) : h.decide x token = .refuse (.failure .requestCancelled) := by
  have ha := (h.life.admits_iff x.method).2 hp
  have hr : x.isRefused token = true := by
    rwa [← x.isRefused_eq_false_iff token, Bool.not_eq_false] at hd
  simp [decide, lookUp, he, ha, hr]

/-- A message that does not pass is refused as such, whether its method is known or not. -/
theorem decide_of_not_passes (token : Bool) (hp : ¬ h.Passes x.method) :
    h.decide x token = .refuse (.failure .notInitialized) := by
  have ha : h.life.admits x.method = false := by
    rwa [Passes, ← h.life.admits_iff, Bool.not_eq_true] at hp
  have hm : x.method ≠ Method.exit := fun hm => hp (.inl hm)
  cases he : h.entries.get? x.method with
  | none | some _ => simp [decide, lookUp, he, ha, hm]

/-- A message that passes and has no entry is of an unknown method. -/
theorem decide_of_unknown (token : Bool) (he : h.entries.get? x.method = none)
    (hp : h.Passes x.method) (hm : x.method ≠ Method.exit) :
    h.decide x token = .refuse .methodNotFound := by
  have ha := (h.life.admits_iff x.method).2 hp
  simp [decide, lookUp, he, ha, hm]

/-- An `exit` needs no callback. -/
theorem decide_of_exit (token : Bool) (he : h.entries.get? x.method = none)
    (hm : x.method = Method.exit) : h.decide x token = .refuse (.success none) := by
  simp only [decide, lookUp, he, if_pos hm]

/-- A message that is refused has its result at once. -/
theorem handle_of_refuse (hooks : Hooks σ) {r : DispatchResult} (hd : h.decide x token = .refuse r)
    (w : σ) : h.handle hooks x token w = (.result r, h.finish x.method r, w) := by
  simp only [handle, hd]

/-- A message whose parameters do not decode has its result at once. -/
theorem handle_of_error (hooks : Hooks σ) {e : LspError} (hd : h.decide x token = .handle entry)
    (he : entry.start x = .error e) (w : σ) :
    h.handle hooks x token w =
      (.result (.invalidParams (some e)), h.finish x.method (.invalidParams (some e)), w) := by
  simp only [handle, hd, he]

/-- A message whose parameters decode has its callback run. -/
theorem handle_of_ok (hooks : Hooks σ) {activity : Activity} (hd : h.decide x token = .handle entry)
    (he : entry.start x = .ok activity) (w : σ) :
    h.handle hooks x token w =
      conclude x.method (activity.run hooks (x.isCancelled token) h w) := by
  simp only [handle, hd, he]
  obtain ⟨ending, h', w'⟩ := activity.run hooks (x.isCancelled token) h w
  cases ending <;> rfl

/-- A callback that is invoked is run once, from where the handler and the client stand. -/
theorem handle_of_some (hooks : Hooks σ) {activity : Activity}
    (hi : h.invocation? x token = some activity) (w : σ) :
    h.handle hooks x token w =
      conclude x.method (activity.run hooks (x.isCancelled token) h w) := by
  -- Only a message that is not refused, with parameters that are read, is acted on.
  cases hd : h.decide x token with
  | refuse r => simp [invocation?, hd] at hi
  | handle entry =>
    cases he : entry.start x with
    | error e => simp [invocation?, hd, he, Except.toOption] at hi
    | ok a =>
      simp only [invocation?, hd, he, Except.toOption, Option.some.injEq] at hi
      rw [handle_of_ok hooks hd he, hi]

/-- A callback that is invoked and returns has its outcome for the result of the message. -/
theorem handle_of_returns {hooks : Hooks σ} {c : Callback} {outcome : Outcome (Option LspAny)}
    {h' : Handler} {w w' : σ} (he : h.entries.get? x.method = some c.entry)
    (hp : h.Passes x.method) (hd : x.IsDue token)
    (hr : c.Returns hooks (x.isCancelled token) x h w outcome h' w') :
    h.handle hooks x token w =
      (.result (.ofOutcome outcome), h'.finish x.method (.ofOutcome outcome), w') := by
  obtain ⟨activity, hs, hrun⟩ := hr.run_eq
  rw [handle_of_ok hooks (decide_of_handles he hp hd) hs, hrun, conclude]

/-- Unless a callback is invoked the message has a result at once, and nothing else happens. -/
theorem handle_of_none (hooks : Hooks σ) (hi : h.invocation? x token = none) (w : σ) :
    ∃ r, h.handle hooks x token w = (.result r, h.finish x.method r, w) := by
  cases hd : h.decide x token with
  | refuse r => exact ⟨r, handle_of_refuse hooks hd w⟩
  | handle entry =>
    cases he : entry.start x with
    | error e => exact ⟨_, handle_of_error hooks hd he w⟩
    | ok a => simp [invocation?, hd, he, Except.toOption] at hi

/-- When a callback is invoked. -/
theorem invocation?_isSome_iff {callback : Option Callback}
    (hreg : h.entries.get? x.method = callback.map Callback.entry) :
    (h.invocation? x token).isSome = true ↔
      h.Passes x.method ∧ x.IsDue token ∧ ∃ c, callback = some c ∧ c.Accepts x := by
  by_cases hp : h.Passes x.method
  case neg => simp [invocation?, decide_of_not_passes token hp, hp]
  cases callback with
  | none =>
    by_cases hm : x.method = Method.exit
    · simp [invocation?, decide_of_exit token hreg hm]
    · simp [invocation?, decide_of_unknown token hreg hp hm]
  | some c =>
    by_cases hd : x.IsDue token
    -- A message that is given up invokes nothing, even if its parameters decode.
    case neg => simp [invocation?, decide_of_not_due hreg hp hd, hd]
    simp only [invocation?, decide_of_handles hreg hp hd, hp, hd, true_and, Option.some.injEq]
    rcases c.accepts_or_refuses x with ha | ⟨e, he⟩
    · obtain ⟨activity, hs⟩ := ha.start_eq
      simp [hs, Except.toOption, ha]
    · have hn : ¬ c.Accepts x := fun ha => by
        obtain ⟨activity, hs⟩ := ha.start_eq
        simp [he.start_eq] at hs
      simp [he.start_eq, Except.toOption, hn]

end Handler

/-- The flags of a result say which answer it is. -/
theorem DispatchResult.response_eq (r : DispatchResult) (id : Id) (method : String) :
    r.response id method =
      if r.methodValid = false then
        .failure (some id) (.of .methodNotFound ("method not found: " ++ method))
      else if r.paramsValid = false then
        .failure (some id)
          (.of .invalidParams ((r.error?.map LspError.message).getD "invalid params"))
      else
        match r.error? with
        | some e => .failure (some id) e.toResponse
        | none => .success id ((r.result?.map LspAny.toJson).getD .null) := by
  cases r with
  | success result | failure error | methodNotFound => rfl
  -- Parameters may be refused without a word of why.
  | invalidParams error => cases error <;> rfl

namespace Handler

variable {σ : Type}

/-- The decision over a message, whatever is registered.  The callback of the method is invoked if
the message passes, is due and has parameters that decode, and it is run once; then its result is
that of the message.  Otherwise nothing is done, and the first reason that applies says what the
result is: there is no need of a callback for `exit`, the message does not pass, its method is
unknown, it is given up, its parameters do not decode. -/
theorem handle_callback (hooks : Hooks σ) (h : Handler) (x : Context) (token : Bool) (w : σ)
    (callback : Option Callback)
    (hreg : h.entries.get? x.method = callback.map Callback.entry) :
    ((h.invocation? x token).isSome = true ↔
      h.Passes x.method ∧ x.IsDue token ∧ ∃ c, callback = some c ∧ c.Accepts x) ∧
    (∀ activity, h.invocation? x token = some activity →
      h.handle hooks x token w =
        conclude x.method (activity.run hooks (x.isCancelled token) h w)) ∧
    (∀ c outcome h' w', callback = some c → h.Passes x.method → x.IsDue token →
      c.Returns hooks (x.isCancelled token) x h w outcome h' w' →
      h.handle hooks x token w =
        (.result (.ofOutcome outcome), h'.finish x.method (.ofOutcome outcome), w')) ∧
    (callback = none → x.method = Method.exit →
      h.handle hooks x token w = (.result (.success none), h.finish x.method (.success none), w)) ∧
    (¬ h.Passes x.method → h.handle hooks x token w = (.result (.failure .notInitialized), h, w)) ∧
    (callback = none → h.Passes x.method → x.method ≠ Method.exit →
      h.handle hooks x token w = (.result .methodNotFound, h, w)) ∧
    (callback ≠ none → h.Passes x.method → ¬ x.IsDue token →
      h.handle hooks x token w = (.result (.failure .requestCancelled), h, w)) ∧
    (∀ c e, callback = some c → h.Passes x.method → x.IsDue token → c.Refuses x e →
      h.handle hooks x token w = (.result (.invalidParams (some (.ofDecode e))),
        h.finish x.method (.invalidParams (some (.ofDecode e))), w)) ∧
    ∀ (r : DispatchResult) (id : Id), r.response id x.method =
      if r.methodValid = false then
        .failure (some id) (.of .methodNotFound ("method not found: " ++ x.method))
      else if r.paramsValid = false then
        .failure (some id)
          (.of .invalidParams ((r.error?.map LspError.message).getD "invalid params"))
      else
        match r.error? with
        | some e => .failure (some id) e.toResponse
        | none => .success id ((r.result?.map LspAny.toJson).getD .null) := by
  -- An `exit` passes and is due at all times, so what does not pass or is not due is no `exit`.
  have hexit (hn : ¬ h.Passes x.method ∨ ¬ x.IsDue token) : x.method ≠ Method.exit := fun hm =>
    hn.elim (fun hp => hp (.inl hm)) fun hd => hd (.inl hm)
  refine ⟨invocation?_isSome_iff hreg, fun _ hi => handle_of_some hooks hi w, ?returned, ?exit,
    ?gated, ?unknown, ?cancelled, ?refused, fun r id => r.response_eq id x.method⟩
  case returned =>
    rintro c outcome h' w' rfl hp hd hr
    exact handle_of_returns hreg hp hd hr
  case exit =>
    rintro rfl hm
    -- An `exit` without a callback finishes by itself.
    exact handle_of_refuse hooks (decide_of_exit token hreg hm) w
  case gated =>
    intro hp
    -- The refusals that follow leave the handler as it is.
    rw [handle_of_refuse hooks (decide_of_not_passes token hp),
      finish_of_not_isSuccess (hexit (.inl hp)) rfl]
  case unknown =>
    rintro rfl hp hm
    rw [handle_of_refuse hooks (decide_of_unknown token hreg hp hm), finish_of_not_isSuccess hm rfl]
  case cancelled =>
    intro hc hp hd
    obtain ⟨c, rfl⟩ := Option.ne_none_iff_exists'.1 hc
    rw [handle_of_refuse hooks (decide_of_not_due hreg hp hd),
      finish_of_not_isSuccess (hexit (.inr hd)) rfl]
  case refused =>
    rintro c e rfl hp hd he
    exact handle_of_error hooks (decide_of_handles hreg hp hd) he.start_eq w

/-- A callback that takes no parameters and leaves a note. -/
def exampleNote (x : Context) (_ : InitializedParams) : Act (Outcome Unit) := do
  Act.note (.string x.method)
  pure (.ok ())

/-- A handler that is initialized and knows one method. -/
def exampleHandler : Handler where
  entries := .ofList [("ping", .notification InitializedParams.codec exampleNote)]
  life := { state := .initialized }

/-- Null does not decode, but an empty object does, so the callback of a notification without
parameters is invoked once, though the notification is given up. -/
theorem handle_exampleNote :
    exampleHandler.entries.get? "ping" =
        some (Callback.notification InitializedParams.codec exampleNote).entry ∧
      exampleHandler.handle (.detached fun entry notes => notes ++ [entry])
          { method := "ping" } true [] =
        (.result (.success none), exampleHandler, [.string "ping"]) := by
  have hreg : exampleHandler.entries.get? "ping" =
    some (Callback.notification InitializedParams.codec exampleNote).entry := rfl
  have hreads : Context.Reads InitializedParams.codec { method := "ping" } ⟨⟩ := .absent rfl rfl rfl
  have hyields : (exampleNote { method := "ping" } ⟨⟩).Yields
      (.detached fun entry notes => notes ++ [entry]) true exampleHandler [] (.ok ())
      exampleHandler [.string "ping"] := fun _ => rfl
  obtain ⟨-, -, hinvoked, -⟩ :=
    handle_callback (.detached fun entry notes => notes ++ [entry]) exampleHandler
      { method := "ping" } true [] (some (.notification InitializedParams.codec exampleNote)) hreg
  exact ⟨hreg, hinvoked _ _ _ _ rfl (.inr (.inr rfl)) (.inr (.inl rfl))
    (.notification hreads hyields)⟩

end Handler

end LanguageServer
