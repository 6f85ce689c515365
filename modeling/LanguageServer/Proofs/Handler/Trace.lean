import LanguageServer.Handler.Trace
import LanguageServer.Proofs.Handler.History

/-!
# Telling as much as was asked for

The trace level in force is the last one that was set (`Handler.History.trace_eq`).
`Handler.Upshot` lists what a message can change: nothing, unless a callback gets it; the level that
an `initialize` carries; and what the callback itself changes.  `Trace.message` and `Trace.tell` go
by the level in force when they are called; `Act.Sends` says what they send to the client.

`Handler.trace_of_history` puts the two together.
-/

namespace LanguageServer

/-- The changes that an act makes whose value is written as a result. -/
def Act.changes {σ α : Type} (hooks : Hooks σ) (cancelled : Bool) (t : Act (Outcome α))
    (write : α → Outcome (Option LspAny)) (h : Handler) (w : σ) : List Handler.Change :=
  (t.andThen fun a => pure (write a)).toActivity.changes hooks cancelled h w

/-- The built-in callback of `$/setTrace`. -/
def Callback.setTrace : Callback :=
  .notification SetTraceParams.codec fun _ params => do
    Act.setTrace params.value
    pure (.ok ())

/-- The callback of `$/setTrace` has the built-in entry. -/
theorem Callback.entry_setTrace : Callback.setTrace.entry = .setTrace := rfl

namespace Handler

/-! ## The level in force -/

/-- The level that a change sets, if it sets one. -/
def Change.level? : Change → Option TraceValue
  | .traced level => some level
  | .registered _ _ | .unregistered _ => none

/-- The level that was set last; a new handler is off. -/
def levelInForce (past : List Change) : TraceValue :=
  ((past.filterMap Change.level?).getLast?).getD .off

/-- The last level that was set is in force. -/
theorem levelInForce_concat (past : List Change) (c : Change) :
    levelInForce (past ++ [c]) = c.level?.getD (levelInForce past) := by
  cases c with
  | traced level => simp [levelInForce, Change.level?]
  | registered method entry | unregistered method => simp [levelInForce, Change.level?]

variable {config : ServerConfig} {past : List Change} {h : Handler}

/-- A handler is at the level that is in force. -/
theorem History.trace_eq (hh : History config past h) : h.trace = levelInForce past := by
  induction hh with
  | new => rfl
  | change c _ ih =>
    rw [levelInForce_concat, ← ih]
    cases c <;> rfl
  | finish method r _ ih => exact ih

/-! ## What a message changes -/

variable {σ : Type} {hooks : Hooks σ} {x : Context} {token : Bool} {w : σ}

/-- What a message changes, by what is registered for its method. -/
inductive Upshot (hooks : Hooks σ) (past : List Change) (h : Handler) (x : Context) (token : Bool)
    (w : σ) : List Change → Prop
  /-- No callback gets the message. -/
  | nothing :
    (h.Passes x.method → x.IsDue token → ∀ c : Callback, Latest past x.method c.entry →
      ¬ c.Accepts x) →
    Upshot hooks past h x token w []
  /-- The level that the message carries, if it carries one, comes before what the callback
  changes. -/
  | initialization
      {f : Context → InitializeParams → InitializeResult → Act (Outcome InitializeResult)}
      {p : InitializeParams} :
    x.method = Method.initialization → x.IsDue token →
    Latest past x.method (.initialization f) → x.Reads InitializeParams.codec p →
    Upshot hooks past h x token w
      (p.trace.toList.map .traced ++
        (f x p ((h.tracing p.trace).outlook.initializeResult p)).changes hooks
          (x.isCancelled token) (fun r => .ok (some (.ofTyped InitializeResult.codec r)))
          (h.tracing p.trace) w)
  /-- Only the callback changes anything. -/
  | request {π ρ : Type} {params : Codec π} {write : ρ → Outcome LspAny}
      {f : Context → π → Act (Outcome ρ)} {p : π} :
    h.Passes x.method → x.IsDue token → Latest past x.method (.answering params write f) →
    x.Reads params p →
    Upshot hooks past h x token w
      ((f x p).changes hooks (x.isCancelled token) (fun r => (write r).map some) h w)
  | notification {π : Type} {params : Codec π} {f : Context → π → Act (Outcome Unit)} {p : π} :
    h.Passes x.method → x.IsDue token → Latest past x.method (.notification params f) →
    x.Reads params p →
    Upshot hooks past h x token w
      ((f x p).changes hooks (x.isCancelled token) (fun _ => .ok none) h w)

/-- Everything that is registered is a callback for its method. -/
def OnlyCallbacks (past : List Change) : Prop :=
  ∀ method entry, .registered method entry ∈ past → ∃ c : Callback, c.Fits method ∧ c.entry = entry

/-- A callback that gets a message makes all changes that come of it. -/
theorem changes_of_reads {π : Type} {p : Codec π} {f : Context → π → Act (Outcome (Option LspAny))}
    {a : π} (hooks : Hooks σ) (he : h.entries.get? x.method = some (.decoding p f))
    (hp : h.Passes x.method) (hd : x.IsDue token) (ha : x.Reads p a) (w : σ) :
    h.changes hooks x token w =
      (f x a).toActivity.changes hooks (x.isCancelled token) h w := by
  rw [changes, invocation?, decide_of_handles he hp hd]
  simp only [Entry.start_of_reads ha, Except.toOption]

/-- A message that invokes nothing changes nothing. -/
theorem changes_of_none (hooks : Hooks σ) (hi : h.invocation? x token = none) (w : σ) :
    h.changes hooks x token w = [] := by
  rw [changes, hi]

/-- What an `initialize` changes. -/
theorem changes_of_initialization
    {f : Context → InitializeParams → InitializeResult → Act (Outcome InitializeResult)}
    {p : InitializeParams} (hooks : Hooks σ)
    (he : h.entries.get? x.method = some (.initialization f)) (hp : h.Passes x.method)
    (hd : x.IsDue token) (ha : x.Reads InitializeParams.codec p) (w : σ) :
    h.changes hooks x token w =
      p.trace.toList.map .traced ++
        (f x p ((h.tracing p.trace).outlook.initializeResult p)).changes hooks
          (x.isCancelled token) (fun r => .ok (some (.ofTyped InitializeResult.codec r)))
          (h.tracing p.trace) w := by
  rw [changes_of_reads hooks he hp hd ha]
  -- The level is set before the callback is run, so that the callback meets a handler that has it.
  cases htrace : p.trace with
  | none =>
    simp only [htrace]
    rfl
  | some level =>
    simp only [htrace]
    rfl

/-- Two histories of callbacks make one. -/
theorem OnlyCallbacks.append {past later : List Change} (hp : OnlyCallbacks past)
    (hl : OnlyCallbacks later) : OnlyCallbacks (past ++ later) := fun method entry hm =>
  (List.mem_append.1 hm).elim (hp method entry) (hl method entry)

/-- What is built in are callbacks. -/
theorem onlyCallbacks_builtIn : OnlyCallbacks builtIn := by
  intro method entry hm
  rw [builtIn, List.mem_cons, List.mem_singleton] at hm
  rcases hm with hm | hm
  · cases hm
    exact ⟨.offered, rfl, rfl⟩
  · cases hm
    exact ⟨.request _ _ fun _ _ => pure (.ok ()), trivial, rfl⟩

/-- What comes of a message is one of the four. -/
theorem upshot_of_history (hh : History config past h) (hc : OnlyCallbacks past) (hooks : Hooks σ)
    (x : Context) (token : Bool) (w : σ) :
    Upshot hooks past h x token w (h.changes hooks x token w) := by
  cases hi : h.invocation? x token with
  | none =>
    rw [changes_of_none hooks hi]
    refine .nothing fun hp hd c hc haccepts => ?_
    have he : h.entries.get? x.method = (some c).map Callback.entry := hh.get?_eq_some_iff.2 hc
    have hsome := (invocation?_isSome_iff he).2 ⟨hp, hd, c, rfl, haccepts⟩
    simp [hi] at hsome
  | some activity =>
    -- What is run was registered for the method, so it belongs to a callback.
    obtain ⟨entry, he, -⟩ := start_of_invocation? hi
    have hlatest := hh.get?_eq_some_iff.1 he
    obtain ⟨c, hfits, rfl⟩ := hc x.method entry hlatest.mem
    have hc' : h.entries.get? x.method = (some c).map Callback.entry := he
    obtain ⟨hp, hd, c', hcc', haccepts⟩ :=
      (invocation?_isSome_iff hc').1 (Option.isSome_iff_exists.2 ⟨activity, hi⟩)
    obtain rfl := Option.some.inj hcc'
    cases c with
    | request params write f =>
      obtain ⟨p, ha⟩ := haccepts
      rw [changes_of_reads hooks he hp hd ha]
      exact .request hp hd hlatest ha
    | notification params f =>
      obtain ⟨p, ha⟩ := haccepts
      rw [changes_of_reads hooks he hp hd ha]
      exact .notification hp hd hlatest ha
    | initialization f =>
      obtain ⟨p, ha⟩ := haccepts
      rw [changes_of_initialization hooks he hp hd ha]
      exact .initialization hfits hd hlatest ha

/-- The built-in callback of `$/setTrace` takes over the level that is asked for. -/
theorem changes_of_setTrace {p : SetTraceParams} (hooks : Hooks σ)
    (he : h.entries.get? x.method = some .setTrace) (hp : h.Passes x.method) (hd : x.IsDue token)
    (ha : x.Reads SetTraceParams.codec p) (w : σ) :
    h.changes hooks x token w = [.traced p.value] := by
  rw [changes_of_reads hooks he hp hd ha]
  rfl

end Handler

/-! ## What is told -/

/-- Send a notification, if there is one; the answer is whether it was sent. -/
def Hooks.deliver {σ : Type} (hooks : Hooks σ) : Option (String × LspAny) → σ → Outcome Bool × σ
  | some (method, params), w =>
    ((hooks.notify method params w).1.map fun _ => true, (hooks.notify method params w).2)
  | none, w => (.ok false, w)

/-- The answer is yes when there was a notification and the client has taken it. -/
theorem Hooks.deliver_eq_ok_true_iff {σ : Type} (hooks : Hooks σ)
    (message : Option (String × LspAny)) (w : σ) :
    (hooks.deliver message w).1 = .ok true ↔
      ∃ method params, message = some (method, params) ∧
        (hooks.notify method params w).1 = .ok () := by
  cases message with
  | none => simp [deliver]
  | some m =>
    obtain ⟨method, params⟩ := m
    cases hn : (hooks.notify method params w).1 <;> simp [deliver, hn, Except.map]

/-- An act that sends a notification or none, and does nothing else. -/
def Act.Sends {σ : Type} (hooks : Hooks σ) (cancelled : Bool) (t : Act (Outcome Bool))
    (h : Handler) (message : Option (String × LspAny)) : Prop :=
  ∀ w, t.Yields hooks cancelled h w (hooks.deliver message w).1 h (hooks.deliver message w).2

/-- All is told at the verbose level; errors, warnings and information at the one for messages. -/
theorem TraceValue.admits_iff (level : TraceValue) (type : MessageType) :
    level.admits type = true ↔ level = .verbose ∨
      level = .messages ∧ (type = .error ∨ type = .warning ∨ type = .info) := by
  cases level <;> cases type <;> decide

namespace Act.Sends

variable {σ : Type} (hooks : Hooks σ) (cancelled : Bool) (h : Handler)

/-- Nothing is sent. -/
theorem none : Sends hooks cancelled (pure (.ok false)) h none := fun _ _ => rfl

/-- A notification is sent, and the answer says so. -/
theorem notify (method : String) (params : LspAny) :
    ((Act.notify method params).andThen fun _ => pure (.ok true)).Sends hooks cancelled h
      (some (method, params)) := by
  intro w k
  simp only [Act.andThen, bind, Act.notify, Activity.run, Hooks.deliver]
  cases (hooks.notify method params w).1 <;> rfl

/-- What is sent goes by the handler as it stands. -/
theorem look {f : Outlook → Act (Outcome Bool)} {message : Option (String × LspAny)}
    (ht : (f h.outlook).Sends hooks cancelled h message) :
    Sends hooks cancelled (do
      let outlook ← Act.look
      f outlook) h message := fun w k => ht w k

/-- A message is logged if the level admits its type. -/
theorem message (type : MessageType) (text : String) :
    (Trace.message type text).Sends hooks cancelled h
      (if h.trace.admits type then
        some (Method.logMessage, .ofTyped LogMessageParams.codec ⟨type, text⟩) else .none) := by
  refine look hooks cancelled h ?_
  show Sends hooks cancelled (if h.trace.admits type then _ else _) h _
  split
  · exact notify hooks cancelled h _ _
  · exact none hooks cancelled h

/-- The server tells of its doings unless the level is off, with the details when it is verbose. -/
theorem tell (text : String) (details : Option String) :
    (Trace.tell text details).Sends hooks cancelled h
      (if h.trace = .off then .none else
        some (Method.logTrace, .ofTyped LogTraceParams.codec
          ⟨text, if h.trace = .verbose then details else .none⟩)) := by
  refine look hooks cancelled h ?_
  simp only [Handler.outlook]
  cases htrace : h.trace with
  | off => exact none hooks cancelled h
  | messages | verbose => exact notify hooks cancelled h _ _

end Act.Sends

/-- Kinds of messages are read back. -/
theorem MessageType.isFaithful : MessageType.codec.IsFaithful :=
  Numbering.isFaithful fun k => by cases k <;> exact ⟨by decide, rfl⟩

/-- What is logged is read back. -/
theorem LogMessageParams.isFaithful : LogMessageParams.record.IsFaithful where
  nodup := by decide
  build_make _ := rfl
  fields := ⟨.required MessageType.isFaithful, .required .string, trivial⟩

/-- What is traced is read back. -/
theorem LogTraceParams.isFaithful : LogTraceParams.record.IsFaithful where
  nodup := by decide
  build_make _ := rfl
  fields := ⟨.required .string, .trailing .string, trivial⟩

/-- The members of a logged message. -/
theorem LogMessageParams.get?_ofTyped (p : LogMessageParams) :
    (LspAny.ofTyped codec p).get? "type" = some (.ofInt p.level.toNat) ∧
      (LspAny.ofTyped codec p).get? "message" = some (.string p.message) := by
  obtain ⟨htype, hmessage, -⟩ := isFaithful.shows p
  rw [LspAny.ofTyped, LspAny.get?_ofJson, LspAny.get?_ofJson]
  refine ⟨(congrArg (Option.map LspAny.ofJson) htype).trans ?_,
    congrArg (Option.map LspAny.ofJson) hmessage⟩
  show some (LspAny.ofNumber (.int p.level.toNat)) = _
  rw [LspAny.ofNumber_int] <;> cases p.level <;> decide

/-- The members of a report of the server's doings. -/
theorem LogTraceParams.get?_ofTyped (p : LogTraceParams) :
    (LspAny.ofTyped codec p).get? "message" = some (.string p.message) ∧
      (LspAny.ofTyped codec p).get? "verbose" = p.verbose.map .string := by
  obtain ⟨message, verbose⟩ := p
  obtain ⟨hmessage, hverbose, -⟩ := isFaithful.shows ⟨message, verbose⟩
  rw [LspAny.ofTyped, LspAny.get?_ofJson, LspAny.get?_ofJson]
  refine ⟨congrArg (Option.map LspAny.ofJson) hmessage,
    (congrArg (Option.map LspAny.ofJson) hverbose).trans ?_⟩
  cases verbose <;> rfl

namespace Handler

variable {config : ServerConfig} {past : List Change} {h : Handler}

/-- What a server tells the client of its doings goes by the trace level in force, which is the one
that was set last: by an owner or a callback, by a `$/setTrace` that the built-in callback gets, or
by an `initialize` that carries a level and comes to a callback.  A message is logged if the level
admits its type, the server reports its doings unless the level is off, and gives the details it has
when the level is verbose.  At most one notification is sent, and the answer is yes when there was
one and it was sent without an error. -/
theorem trace_of_history (hh : History config past h) (hc : OnlyCallbacks past) :
    h.trace = levelInForce past ∧
    (∀ (σ : Type) (hooks : Hooks σ) (cancelled : Bool) (w : σ) (level : TraceValue),
      (Act.setTrace level).Yields hooks cancelled h w () ((Change.traced level).apply h) w) ∧
    (∀ (σ : Type) (hooks : Hooks σ) (x : Context) (token : Bool) (w : σ),
      Upshot hooks past h x token w (h.changes hooks x token w) ∧
      (h.handle hooks x token w).2.1.trace = levelInForce (past ++ h.changes hooks x token w) ∧
      ∀ p : SetTraceParams, Latest past x.method .setTrace → h.Passes x.method → x.IsDue token →
        x.Reads SetTraceParams.codec p → h.changes hooks x token w = [.traced p.value]) ∧
    (∀ (type : MessageType) (text : String), ∃ message : Option (String × LspAny),
      (∀ (σ : Type) (hooks : Hooks σ) (cancelled : Bool),
        (Trace.message type text).Sends hooks cancelled h message) ∧
      (message.isSome = true ↔ levelInForce past = .verbose ∨
        levelInForce past = .messages ∧ (type = .error ∨ type = .warning ∨ type = .info)) ∧
      ∀ m ∈ message, m = (Method.logMessage, .ofTyped LogMessageParams.codec ⟨type, text⟩) ∧
        m.2.get? "type" = some (.ofInt type.toNat) ∧ m.2.get? "message" = some (.string text)) ∧
    (∀ (text : String) (details : Option String), ∃ message : Option (String × LspAny),
      (∀ (σ : Type) (hooks : Hooks σ) (cancelled : Bool),
        (Trace.tell text details).Sends hooks cancelled h message) ∧
      (message.isSome = true ↔ levelInForce past ≠ .off) ∧
      ∀ m ∈ message, ∃ verbose : Option String,
        verbose = (if levelInForce past = .verbose then details else none) ∧
        m = (Method.logTrace, .ofTyped LogTraceParams.codec ⟨text, verbose⟩) ∧
        m.2.get? "message" = some (.string text) ∧
        m.2.get? "verbose" = verbose.map .string) ∧
    ∀ (σ : Type) (hooks : Hooks σ) (message : Option (String × LspAny)) (w : σ),
      (hooks.deliver message w).1 = .ok true ↔ ∃ method params, message = some (method, params) ∧
        (hooks.notify method params w).1 = .ok () := by
  have htrace := hh.trace_eq
  refine ⟨htrace, fun σ hooks cancelled w level _ => rfl, fun σ hooks x token w =>
    ⟨upshot_of_history hh hc hooks x token w, (hh.handle hooks x token w).trace_eq,
      fun p hl hp hd ha => changes_of_setTrace hooks (hh.get?_eq_some_iff.2 hl) hp hd ha w⟩,
    fun type text => ⟨_, fun σ hooks cancelled => .message hooks cancelled h type text, ?_, ?_⟩,
    fun text details => ⟨_, fun σ hooks cancelled => .tell hooks cancelled h text details, ?_, ?_⟩,
    fun σ => Hooks.deliver_eq_ok_true_iff⟩
  · -- A message is logged when the level admits its type, and it says what was asked for.
    rw [← htrace, ← TraceValue.admits_iff]
    split <;> simp_all
  · intro m hm
    split at hm
    · obtain rfl := Option.some.inj hm
      exact ⟨rfl, LogMessageParams.get?_ofTyped ⟨type, text⟩⟩
    · cases hm
  · -- A trace is told unless the level is off, and its details only at the verbose one.
    rw [← htrace]
    split <;> simp_all
  · intro m hm
    split at hm
    · cases hm
    · obtain rfl := Option.some.inj hm
      exact ⟨_, by rw [htrace], rfl, LogTraceParams.get?_ofTyped ⟨text, _⟩⟩

/-- A handler that takes over trace levels, initialized. -/
def exampleTracing : Handler :=
  { (ofConfig {}).withTrace with life := { state := .initialized } }

/-- What has become of it so far. -/
def examplePast : List Change := builtIn ++ [.registered Method.setTrace .setTrace]

/-- It is a history. -/
theorem history_exampleTracing : History {} examplePast exampleTracing :=
  (History.new.change (.registered Method.setTrace .setTrace)).finish Method.initialization
    (.success none)

/-- A client that wants to hear everything. -/
def exampleSetTrace : Context where
  method := Method.setTrace
  params := .object [("value", .string "verbose")]

/-- From then on it gets the details. -/
theorem trace_of_exampleSetTrace :
    OnlyCallbacks examplePast ∧ exampleTracing.trace = .off ∧
    exampleTracing.changes (.detached fun _ w => w) exampleSetTrace false () = [.traced .verbose] ∧
    ∃ h, History {} (examplePast ++ [.traced .verbose]) h ∧
      OnlyCallbacks (examplePast ++ [.traced .verbose]) ∧ h.trace = .verbose ∧
      ∃ m : String × LspAny, m.1 = Method.logTrace ∧
        m.2.get? "verbose" = some (.string "two files") ∧
        ∀ (σ : Type) (hooks : Hooks σ) (cancelled : Bool),
          (Trace.tell "indexing" (some "two files")).Sends hooks cancelled h (some m) := by
  have hpast : OnlyCallbacks examplePast := by
    refine onlyCallbacks_builtIn.append fun method entry hm => ?_
    cases List.mem_singleton.1 hm
    exact ⟨.setTrace, trivial, Callback.entry_setTrace⟩
  have hc : OnlyCallbacks (examplePast ++ [.traced .verbose]) :=
    hpast.append fun method entry hm => by simp at hm
  -- Before the change: the level, and what the message changes.
  obtain ⟨htrace, -, hmessage, -⟩ := trace_of_history history_exampleTracing hpast
  have hh := history_exampleTracing.handle (.detached fun _ w => w) exampleSetTrace false ()
  have hchanges := (hmessage Unit (.detached fun _ w => w) exampleSetTrace false ()).2.2 ⟨.verbose⟩
    (history_exampleTracing.get?_eq_some_iff.1 rfl) (.inr (.inr rfl)) (.inr (.inl rfl)) (.given rfl)
  rw [hchanges] at hh
  have hlevel : levelInForce (examplePast ++ [.traced .verbose]) = .verbose :=
    levelInForce_concat examplePast (.traced .verbose)
  -- After it: the new level lets the details through.
  obtain ⟨htrace', -, -, -, htell, -⟩ := trace_of_history hh hc
  obtain ⟨message, hsends, hsome, hm⟩ := htell "indexing" (some "two files")
  obtain ⟨m, rfl⟩ := Option.isSome_iff_exists.1 (hsome.2 (by rw [hlevel]; decide))
  obtain ⟨verbose, hverbose, hmethod, -, hdetails⟩ := hm m rfl
  rw [hlevel, if_pos rfl] at hverbose
  rw [hverbose] at hdetails
  exact ⟨hpast, htrace.trans rfl, hchanges, _, hh, hc, htrace'.trans hlevel, m,
    congrArg Prod.fst hmethod, hdetails, hsends⟩

end Handler

end LanguageServer
