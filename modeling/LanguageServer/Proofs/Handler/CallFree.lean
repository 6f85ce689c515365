import LanguageServer.Handler.Run

/-!
# Callbacks that do not call the client

A callback that is `IsCallFree` sends notifications at most, so it never waits for the client.
A new handler is call-free (`Handler.isCallFree_ofConfig`), and it stays so when call-free callbacks
are registered.
-/

namespace LanguageServer

/-- Nothing that is done, at once or later, is a request to the client. -/
inductive Activity.IsCallFree : Activity → Prop
  | done (outcome : Outcome (Option LspAny)) : IsCallFree (.done outcome)
  | panic (message : String) : IsCallFree (.panic message)
  | note {next : Activity} (entry : Json) : IsCallFree next → IsCallFree (.note entry next)
  | notify {next : Outcome Unit → Activity} (method : String) (params : LspAny) :
    (∀ r, IsCallFree (next r)) → IsCallFree (.notify method params next)
  | awaitCancelled {next : Activity} : IsCallFree next → IsCallFree (.awaitCancelled next)
  | askCancelled {next : Bool → Activity} :
    (∀ b, IsCallFree (next b)) → IsCallFree (.askCancelled next)
  | look {next : Outlook → Activity} : (∀ o, IsCallFree (next o)) → IsCallFree (.look next)
  | setTrace {next : Activity} (level : TraceValue) :
    IsCallFree next → IsCallFree (.setTrace level next)
  | register {start : Context → Outcome Activity} {next : Activity} (method : String) :
    (∀ x a, start x = .ok a → IsCallFree a) → IsCallFree next →
    IsCallFree (.register method start next)
  | unregister {next : Bool → Activity} (method : String) :
    (∀ b, IsCallFree (next b)) → IsCallFree (.unregister method next)

/-- Whatever comes after it, the act itself does not call the client. -/
def Act.IsCallFree {α : Type} (t : Act α) : Prop :=
  ∀ k : α → Activity, (∀ a, (k a).IsCallFree) → (t k).IsCallFree

/-- Whatever the message, the callback does not call the client. -/
def Entry.IsCallFree (entry : Entry) : Prop :=
  ∀ x a, entry.start x = .ok a → a.IsCallFree

/-- No callback calls the client. -/
def Handler.IsCallFree (h : Handler) : Prop :=
  ∀ method entry, h.entries.get? method = some entry → entry.IsCallFree

namespace Act

variable {α β : Type}

/-- Doing nothing asks the client for nothing. -/
theorem isCallFree_pure (a : α) : (pure a : Act α).IsCallFree := fun _ hk => hk a

/-- To notify is not to ask. -/
theorem isCallFree_notify (method : String) (params : LspAny) :
    (notify method params).IsCallFree :=
  fun _ hk => .notify method params hk

/-- Looking at the handler asks the client for nothing. -/
theorem isCallFree_look : look.IsCallFree := fun _ hk => .look hk

/-- Setting the level asks the client for nothing. -/
theorem isCallFree_setTrace (level : TraceValue) : (setTrace level).IsCallFree :=
  fun _ hk => .setTrace level (hk ())

/-- One thing after another asks for nothing when neither does. -/
theorem IsCallFree.bind {t : Act α} {f : α → Act β} (ht : t.IsCallFree)
    (hf : ∀ a, (f a).IsCallFree) : (t >>= f).IsCallFree :=
  fun k hk => ht _ fun a => hf a k hk

/-- So it is when the second one is done only if the first one succeeds. -/
theorem IsCallFree.andThen {t : Act (Outcome α)} {f : α → Act (Outcome β)} (ht : t.IsCallFree)
    (hf : ∀ a, (f a).IsCallFree) : (t.andThen f).IsCallFree := by
  refine ht.bind fun r => ?_
  cases r with
  | ok a => exact hf a
  | error e => exact isCallFree_pure _

end Act

namespace Entry

variable {π ρ : Type} {p : Codec π}

/-- An entry that reads parameters asks for nothing when what it does with them does not. -/
theorem isCallFree_decoding {f : Context → π → Act (Outcome (Option LspAny))}
    (hf : ∀ x params, (f x params).IsCallFree) : (decoding p f).IsCallFree := by
  intro x a ha
  simp only [decoding] at ha
  cases hp : x.decodeParams p with
  | error e => simp [hp, Except.map] at ha
  | ok params =>
    simp only [hp, Except.map, Except.ok.injEq] at ha
    rw [← ha]
    exact hf x params .done .done

/-- The entry of a request asks for nothing when its function does not. -/
theorem isCallFree_request {r : Codec ρ} {f : Context → π → Act (Outcome ρ)}
    (hf : ∀ x params, (f x params).IsCallFree) : (request p r f).IsCallFree :=
  isCallFree_decoding fun x params => (hf x params).andThen fun _ => Act.isCallFree_pure _

/-- The entry of `initialize` asks for nothing when its function does not: the level is set and the
handler looked at before. -/
theorem isCallFree_initialization
    {f : Context → InitializeParams → InitializeResult → Act (Outcome InitializeResult)}
    (hf : ∀ x params offered, (f x params offered).IsCallFree) :
    (initialization f).IsCallFree := by
  refine isCallFree_request fun x params => ?_
  have hlook : Act.IsCallFree (do
      let outlook ← Act.look
      f x params (outlook.initializeResult params)) :=
    Act.isCallFree_look.bind fun outlook => hf x params _
  -- The level is set only if the client names one.
  cases htrace : params.trace with
  | none => exact hlook
  | some level => exact (Act.isCallFree_setTrace level).bind fun _ => hlook

end Entry

namespace Handler

/-- A handler stays free of calls when the new entry is. -/
theorem IsCallFree.register {h : Handler} (hf : h.IsCallFree) {entry : Entry}
    (he : entry.IsCallFree) (method : String) : (h.register method entry).IsCallFree := by
  intro m e hm
  rw [Handler.register, Dictionary.get?_insert] at hm
  split at hm
  · rwa [← Option.some.inj hm]
  · exact hf m e hm

/-- A handler stays free of calls when an entry is taken out. -/
theorem IsCallFree.unregister {h : Handler} (hf : h.IsCallFree) (method : String) :
    (h.unregister method).IsCallFree := by
  intro m e hm
  rw [Handler.unregister, Dictionary.get?_erase] at hm
  split at hm
  · simp at hm
  · exact hf m e hm

/-- What a handler knows of its own accord calls no client. -/
theorem isCallFree_ofConfig (config : ServerConfig) : (ofConfig config).IsCallFree := by
  have hinit : (Entry.initialization fun _ _ offered => pure (.ok offered)).IsCallFree :=
    Entry.isCallFree_initialization fun _ _ _ => Act.isCallFree_pure _
  have hshut : (Entry.shutdown fun _ => pure (.ok ())).IsCallFree :=
    Entry.isCallFree_request fun _ _ => Act.isCallFree_pure _
  intro method entry he
  have hmem := Members.mem_of_get?_ofList he
  simp only [List.mem_cons, List.not_mem_nil, or_false, Prod.mk.injEq] at hmem
  rcases hmem with ⟨-, rfl⟩ | ⟨-, rfl⟩
  · exact hinit
  · exact hshut

/-- A method that is handled has an entry. -/
theorem get?_of_lookUp {h : Handler} {method : String} {entry : Entry}
    (he : h.lookUp method = .handle entry) : h.entries.get? method = some entry := by
  unfold lookUp at he
  cases hg : h.entries.get? method with
  | some e =>
    simp only [hg] at he
    split at he
    · rw [Decision.handle.inj he]
    · cases he
  | none =>
    simp only [hg] at he
    split at he
    · cases he
    · -- Without an entry nothing is handled.
      split at he <;> cases he

end Handler

end LanguageServer
