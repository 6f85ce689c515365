import LanguageServer.Proofs.Handler.Encoding
import LanguageServer.Proofs.Handler.Failure

/-!
# What has become of a handler

A `Handler.Change` is a change to what a handler knows: a method is registered or unregistered, or
the trace level is set.  The owner of the handler and its callbacks may make one at any time;
`Activity.changes` are those that a callback makes, `Handler.changes` those that come of a message.
`Handler.History` relates the changes so far, in the order of time, to the handler as it stands, be
it between two messages or in the middle of a callback.

* `Handler.History.get?_eq_some_iff`: a handler knows for a method what was registered last for it,
  unless the method was unregistered since.
* `Handler.registry_of_history`: so the list of methods, what is run for a message, and what the
  server says it can do all come from the same changes, whatever else has happened.
-/

namespace LanguageServer

namespace Handler

/-! ## Changes -/

/-- A change to what a handler knows. -/
inductive Change where
  | registered (method : String) (entry : Entry)
  | unregistered (method : String)
  | traced (level : TraceValue)

namespace Change

/-- The handler after a change. -/
def apply (h : Handler) : Change → Handler
  | .registered method entry => h.register method entry
  | .unregistered method => h.unregister method
  | .traced level => { h with trace := level }

/-- The method that a change is about, if it is about one. -/
def method? : Change → Option String
  | .registered method _ => some method
  | .unregistered method => some method
  | .traced _ => none

end Change

/-- The handler after changes. -/
def changed (h : Handler) (changes : List Change) : Handler := changes.foldl Change.apply h

/-- Without changes a handler stays as it is. -/
@[simp] theorem changed_nil (h : Handler) : h.changed [] = h := rfl

/-- Changes are made one after the other. -/
@[simp] theorem changed_cons (h : Handler) (c : Change) (changes : List Change) :
    h.changed (c :: changes) = (c.apply h).changed changes := rfl

end Handler

/-- The changes that an activity makes to its handler, in their order. -/
def Activity.changes {σ : Type} (hooks : Hooks σ) (cancelled : Bool) :
    Activity → Handler → σ → List Handler.Change
  | .done _, _, _ => []
  | .panic _, _, _ => []
  | .note entry next, h, w => next.changes hooks cancelled h (hooks.note entry w)
  | .notify method params next, h, w =>
    (next (hooks.notify method params w).1).changes hooks cancelled h
      (hooks.notify method params w).2
  | .call method params next, h, w =>
    (next (hooks.call method params w).1).changes hooks cancelled h (hooks.call method params w).2
  | .awaitCancelled next, h, w => if cancelled then next.changes hooks cancelled h w else []
  | .askCancelled next, h, w => (next cancelled).changes hooks cancelled h w
  | .look next, h, w => (next h.outlook).changes hooks cancelled h w
  | .setTrace level next, h, w =>
    .traced level :: next.changes hooks cancelled { h with trace := level } w
  | .register method start next, h, w =>
    .registered method ⟨start⟩ :: next.changes hooks cancelled (h.register method ⟨start⟩) w
  | .unregister method next, h, w =>
    .unregistered method ::
      (next (h.isRegistered method)).changes hooks cancelled (h.unregister method) w

/-- What an activity leaves behind is what its changes make of the handler. -/
theorem Activity.run_handler {σ : Type} (hooks : Hooks σ) (cancelled : Bool) (a : Activity)
    (h : Handler) (w : σ) :
    (a.run hooks cancelled h w).2.1 = h.changed (a.changes hooks cancelled h w) := by
  -- Each act hands on the handler that its change makes, if it makes one.
  fun_induction Activity.changes hooks cancelled a h w with
  | case1 | case2 => rfl
  | case3 entry next h w ih => exact ih
  | case4 method params next h w ih => exact ih
  | case5 method params next h w ih => exact ih
  | case6 next h w hc ih => rwa [Activity.run, if_pos hc]
  | case7 next h w hc =>
    rw [Activity.run, if_neg hc]
    rfl
  | case8 next h w ih => exact ih
  | case9 next h w ih => exact ih
  | case10 level next h w ih => exact ih
  | case11 method start next h w ih => exact ih
  | case12 method next h w ih => exact ih

namespace Handler

/-- The changes that the callback for a message makes, if one is invoked. -/
def changes {σ : Type} (hooks : Hooks σ) (h : Handler) (x : Context) (token : Bool) (w : σ) :
    List Change :=
  match h.invocation? x token with
  | some activity => activity.changes hooks (x.isCancelled token) h w
  | none => []

/-! ## Histories -/

/-- A new handler has these two registered. -/
def builtIn : List Change := [
  .registered Method.initialization Callback.offered.entry,
  .registered Method.shutdown (.shutdown fun _ => pure (.ok ()))]

/-- A handler of given settings, after changes that were made to it one by one.  Between any two,
messages may have moved it on in its life. -/
inductive History (config : ServerConfig) : List Change → Handler → Prop
  | new : History config builtIn (ofConfig config)
  | change {past : List Change} {h : Handler} (c : Change) :
    History config past h → History config (past ++ [c]) (c.apply h)
  | finish {past : List Change} {h : Handler} (method : String) (r : DispatchResult) :
    History config past h → History config past (h.finish method r)

/-- The last change to a method has registered an entry for it. -/
def Latest (past : List Change) (method : String) (entry : Entry) : Prop :=
  ∃ before since, past = before ++ .registered method entry :: since ∧
    ∀ c ∈ since, c.method? ≠ some method

/-- Nothing was registered in the beginning. -/
theorem not_latest_nil {method : String} {entry : Entry} : ¬ Latest [] method entry := by
  rintro ⟨before, since, h, -⟩
  simp at h

/-- What was registered last was registered. -/
theorem Latest.mem {past : List Change} {method : String} {entry : Entry}
    (hl : Latest past method entry) : .registered method entry ∈ past := by
  obtain ⟨before, since, rfl, -⟩ := hl
  simp

/-- What was registered last is the last change, if that concerns the method, or what it was before.
-/
theorem latest_concat {past : List Change} {c : Change} {method : String} {entry : Entry} :
    Latest (past ++ [c]) method entry ↔
      c = .registered method entry ∨ c.method? ≠ some method ∧ Latest past method entry := by
  -- The registration is the change at the end, or that one belongs to what has come since.
  constructor
  · rintro ⟨before, since, h, hs⟩
    cases since using List.reverseRecOn with
    | nil =>
      obtain ⟨-, hc⟩ := List.append_inj' h rfl
      exact .inl (List.singleton_inj.1 hc)
    | append_singleton since c' =>
      have hsplit : past ++ [c] = (before ++ .registered method entry :: since) ++ [c'] := by
        simpa using h
      obtain ⟨hpast, hc⟩ := List.append_inj' hsplit rfl
      obtain rfl := List.singleton_inj.1 hc
      exact .inr ⟨hs c (by simp), before, since, hpast, fun c' hc' => hs c' (by simp [hc'])⟩
  · rintro (rfl | ⟨hc, before, since, rfl, hs⟩)
    · exact ⟨past, [], rfl, nofun⟩
    · refine ⟨before, since ++ [c], by simp, fun c' hc' => ?_⟩
      rcases List.mem_append.1 hc' with hc' | hc'
      · exact hs c' hc'
      · rwa [List.mem_singleton.1 hc']

/-- A handler knows for a method what was registered last. -/
def Knows (h : Handler) (past : List Change) : Prop :=
  ∀ method entry, h.entries.get? method = some entry ↔ Latest past method entry

/-- A change keeps the entries in step with what was registered. -/
theorem Knows.apply {h : Handler} {past : List Change} (c : Change) (hk : h.Knows past) :
    (c.apply h).Knows (past ++ [c]) := by
  intro method entry
  -- The last change of a method decides; other methods keep theirs.
  rw [latest_concat, ← hk method entry]
  cases c with
  | registered m e =>
    show (h.entries.insert m e).get? method = some entry ↔ _
    rw [Dictionary.get?_insert]
    grind [Change.method?]
  | unregistered m =>
    show (h.entries.erase m).get? method = some entry ↔ _
    rw [Dictionary.get?_erase]
    grind [Change.method?]
  | traced level =>
    show h.entries.get? method = some entry ↔ _
    grind [Change.method?]

/-- So do changes one after the other. -/
theorem Knows.changed {h : Handler} {past : List Change} (hk : h.Knows past)
    (changes : List Change) : (h.changed changes).Knows (past ++ changes) := by
  induction changes generalizing past h with
  | nil => rwa [List.append_nil]
  | cons c changes ih => simpa using ih (hk.apply c)

/-- A new handler knows what is built in. -/
theorem knows_ofConfig (config : ServerConfig) : (ofConfig config).Knows builtIn := by
  -- The two entries are put into an empty handler like any other.
  have hempty : ({ entries := .empty, config } : Handler).Knows [] := fun _ _ =>
    iff_of_false nofun not_latest_nil
  exact hempty.changed builtIn

namespace History

variable {config : ServerConfig} {past : List Change} {h : Handler}

/-- Changes make history. -/
theorem changed (hh : History config past h) (changes : List Change) :
    History config (past ++ changes) (h.changed changes) := by
  induction changes generalizing past h with
  | nil => rwa [List.append_nil]
  | cons c changes ih => simpa using ih (hh.change c)

/-- A message adds the changes of its callback, and no others. -/
theorem handle (hh : History config past h) {σ : Type} (hooks : Hooks σ) (x : Context)
    (token : Bool) (w : σ) :
    History config (past ++ h.changes hooks x token w) (h.handle hooks x token w).2.1 := by
  rw [Handler.changes]
  cases hi : h.invocation? x token with
  | none =>
    obtain ⟨r, hr⟩ := handle_of_none hooks hi w
    rw [hr, List.append_nil]
    exact hh.finish x.method r
  | some activity =>
    have hrun := hh.changed (activity.changes hooks (x.isCancelled token) h w)
    rw [← activity.run_handler] at hrun
    rw [handle_of_some hooks hi]
    -- Whatever the callback ends with, only the life goes on from what it leaves behind.
    generalize activity.run hooks (x.isCancelled token) h w = e at hrun ⊢
    obtain ⟨ending, h', w'⟩ := e
    cases ending with
    | done outcome => exact hrun.finish x.method _
    | panicked message | stuck => exact hrun

/-- No change touches the configuration. -/
theorem config_eq (hh : History config past h) : h.config = config := by
  induction hh with
  | new => rfl
  | change c _ ih => cases c <;> exact ih
  | finish method r _ ih => exact ih

/-- A handler knows for a method what was registered last. -/
theorem get?_eq_some_iff (hh : History config past h) {method : String} {entry : Entry} :
    h.entries.get? method = some entry ↔ Latest past method entry := by
  induction hh generalizing method entry with
  | new => exact knows_ofConfig config method entry
  | change c _ ih => exact Knows.apply c (fun _ _ => ih) method entry
  | finish method r _ ih => exact ih

end History

/-! ## What is registered -/

section

variable {h h' : Handler} {method : String}

/-- Methods are listed in order, each one once. -/
theorem pairwise_methods (h : Handler) : h.methods.Pairwise (· < ·) :=
  Members.ascending_iff.1 h.entries.ascending

/-- The methods are those that have an entry. -/
theorem mem_methods_iff : method ∈ h.methods ↔ ∃ entry, h.entries.get? method = some entry := by
  rw [← Option.ne_none_iff_exists', ne_eq, get?_eq_none_iff, not_not]

/-- A method is registered when it is listed. -/
theorem isRegistered_iff : h.isRegistered method = true ↔ method ∈ h.methods := by
  rw [mem_methods_iff, ← Option.isSome_iff_exists]
  exact .rfl

/-- A list of methods is known by what is in it. -/
theorem methods_eq (hs : ∀ method, method ∈ h.methods ↔ method ∈ h'.methods) :
    h.methods = h'.methods := by
  have hnodup (h : Handler) : h.methods.Nodup := h.entries.ascending.nodup_keys
  refine ((List.perm_ext_iff_of_nodup (hnodup h) (hnodup h')).2 hs).eq_of_pairwise
    (fun a b _ _ hab hba => ?_) h.pairwise_methods h'.pairwise_methods
  exact absurd (String.lt_trans hab hba) (String.lt_irrefl _)

end

variable {config : ServerConfig} {past past' : List Change} {h h' : Handler}

/-- A method is listed when something was registered for it and not taken out since. -/
theorem History.mem_methods_iff (hh : History config past h) {method : String} :
    method ∈ h.methods ↔ ∃ entry, Latest past method entry :=
  Handler.mem_methods_iff.trans (exists_congr fun _ => hh.get?_eq_some_iff)

/-- The capabilities are derived from the methods and the configuration, and from nothing else. -/
theorem History.capabilities_eq (hh : History config past h) :
    h.capabilities = .ofMethods h.methods config := by
  rw [← hh.config_eq]
  rfl

/-- What a server knows comes from what was registered last, method by method: the list of methods
and the answers to questions about it, the one callback that is run for a message, and what the
server says it can do.  How and in which order things were registered makes no difference, nor does
it matter which messages were handled in between, except for what their callbacks have changed. -/
theorem registry_of_history (hh : History config past h) :
    h.methods.Pairwise (· < ·) ∧
    (∀ method, method ∈ h.methods ↔ ∃ entry, Latest past method entry) ∧
    (∀ method, h.isRegistered method = true ↔ method ∈ h.methods) ∧
    (∀ (σ : Type) (hooks : Hooks σ) (cancelled : Bool) (w : σ) (method : String), ∃ had : Bool,
      (Act.unregister method).Yields hooks cancelled h w had (h.unregister method) w ∧
      (had = true ↔ method ∈ h.methods)) ∧
    (∀ (σ : Type) (hooks : Hooks σ) (x : Context) (token : Bool) (w : σ) (activity : Activity),
      h.invocation? x token = some activity →
      h.handle hooks x token w =
        conclude x.method (activity.run hooks (x.isCancelled token) h w) ∧
      ∃ entry, entry.start x = .ok activity ∧
        ∀ entry', Latest past x.method entry' ↔ entry' = entry) ∧
    h.capabilities = .ofMethods h.methods config ∧
    (∀ params, h.outlook.initializeResult params =
      { capabilities := { ServerCapabilities.ofMethods h.methods config with
          positionEncoding := some (config.negotiateEncoding params.capabilities) }
        serverInfo := some config.serverInfo }) ∧
    (∀ (σ : Type) (hooks : Hooks σ) (x : Context) (token : Bool) (w : σ)
        (params : InitializeParams), x.method = Method.initialization →
      Latest past x.method Callback.offered.entry → x.IsDue token →
      x.Reads InitializeParams.codec params →
      (h.handle hooks x token w).1 = .result (.success
        (some (.ofTyped InitializeResult.codec (h.outlook.initializeResult params))))) ∧
    (∀ past' h', History config past' h' →
      (∀ method, (∃ entry, Latest past' method entry) ↔ ∃ entry, Latest past method entry) →
      h'.methods = h.methods ∧ h'.capabilities = h.capabilities) ∧
    ∀ (σ : Type) (hooks : Hooks σ) (x : Context) (token : Bool) (w : σ),
      History config (past ++ h.changes hooks x token w) (h.handle hooks x token w).2.1 := by
  refine ⟨h.pairwise_methods, fun method => hh.mem_methods_iff, fun method => isRegistered_iff,
    fun σ hooks cancelled w method => ⟨_, fun _ => rfl, isRegistered_iff⟩, ?_, hh.capabilities_eq,
    fun params => by rw [← hh.config_eq]; rfl, ?_, ?_, fun σ => hh.handle⟩
  · -- The callback that runs is the one that was registered last for the method.
    intro σ hooks x token w activity hi
    obtain ⟨entry, he, hs⟩ := start_of_invocation? hi
    refine ⟨handle_of_some hooks hi w, entry, hs, fun entry' => ?_⟩
    rw [← hh.get?_eq_some_iff, he, Option.some.injEq, eq_comm]
  · intro σ hooks x token w params hm he hd hp
    obtain ⟨h', hhandle⟩ := handle_offered hooks hm (hh.get?_eq_some_iff.2 he) hd hp w
    rw [hhandle]
  · -- Two histories that leave the same methods registered leave the same list, since lists are
    -- sorted.
    intro past' h' hh' hs
    have hmethods : h'.methods = h.methods := methods_eq fun method => by
      rw [hh.mem_methods_iff, hh'.mem_methods_iff, hs]
    exact ⟨hmethods, by rw [hh.capabilities_eq, hh'.capabilities_eq, hmethods]⟩

/-- A notification that says something. -/
def exampleEntry (said : String) : Entry :=
  .notification InitializedParams.codec fun _ _ => do
    Act.note (.string said)
    pure (.ok ())

/-- A callback takes the place of another one, and two methods are unregistered. -/
def exampleChanges : List Change := [
  .registered "ping" (exampleEntry "first"), .unregistered Method.shutdown,
  .registered "pong" (exampleEntry "pong"), .registered "ping" (exampleEntry "second"),
  .unregistered "pong"]

/-- A shorter way to the same methods. -/
def exampleShortcut : List Change := [
  .registered "ping" (exampleEntry "third"), .unregistered Method.shutdown]

/-- The handler says so, runs the second callback only, and can do the same as if there had been
none before it. -/
theorem registry_of_exampleChanges :
    ∃ h h', History {} (builtIn ++ exampleChanges) h ∧
      h.methods = [Method.initialization, "ping"] ∧ h.isRegistered Method.shutdown = false ∧
      Latest (builtIn ++ exampleChanges) "ping" (exampleEntry "second") ∧
      (h.handle (.detached fun said notes => notes ++ [said]) { method := "ping" } false []).2.2 =
        [.string "second"] ∧
      History {} (builtIn ++ exampleShortcut) h' ∧ h'.capabilities = h.capabilities := by
  have hh : History {} (builtIn ++ exampleChanges) _ :=
    (History.new.changed exampleChanges).finish Method.initialization (.success none)
  have hh' : History {} (builtIn ++ exampleShortcut) _ := History.new.changed exampleShortcut
  have hlatest : Latest (builtIn ++ exampleChanges) "ping" (exampleEntry "second") :=
    hh.get?_eq_some_iff.1 rfl
  -- The shortcut leaves the same methods, so that it leaves the same capabilities.
  obtain ⟨-, hmem, hregistered, -, -, -, -, -, hsame, -⟩ := registry_of_history hh
  refine ⟨_, _, hh, rfl, ?_, hlatest, rfl, hh', (hsame _ _ hh' fun method => ?_).2⟩
  · rw [Bool.eq_false_iff, ne_eq, hregistered]
    decide
  · rw [← hmem, ← hh'.mem_methods_iff]
    exact .rfl

end Handler

end LanguageServer
