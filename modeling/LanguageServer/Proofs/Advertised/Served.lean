import LanguageServer.Handler.Endpoint
import LanguageServer.Proofs.Handler.Dispatch

/-!
# What is announced and what is served

`ServerCapabilities.offers` lists the features by which a client sees that it may send requests, the
requests it may then send, and the handlers that make `ServerCapabilities.ofMethods` announce the
feature.

`ServerCapabilities.served_ofMethods` compares what is announced with what is there.  Requests of
some methods may be announced for another handler's sake: `ServerCapabilities.standIns` lists them.
All others that a client may send have a callback.
-/

namespace LanguageServer

/-! ## Features that are on -/

/-- A bare no means no. -/
def BoolOrOptions.isOn {α : Type} : BoolOrOptions α → Bool
  | .bool b => b
  | .options _ => true

def BoolOrOptions.options? {α : Type} : BoolOrOptions α → Option α
  | .bool _ => none
  | .options o => some o

/-- A bare no means no. -/
def ProviderCapability.isOn {α : Type} : ProviderCapability α → Bool
  | .bool b => b
  | .options _ | .registration _ => true

/-- The options, in a registration or not. -/
def ProviderCapability.options? {α : Type} : ProviderCapability α → Option α
  | .bool _ => none
  | .options o => some o
  | .registration o => some o.options

/-- A bare no means no. -/
def SemanticTokensFullOption.isOn : SemanticTokensFullOption → Bool
  | .bool b => b
  | .delta _ => true

/-- Whether the client asks before a document is saved. -/
def TextDocumentSyncCapability.waitsUntil : TextDocumentSyncCapability → Bool
  | .kind _ => false
  | .options o => o.willSaveWaitUntil == some true

/-- The operations on files that the server takes part in. -/
def ServerCapabilities.fileOperations? (s : ServerCapabilities) : Option FileOperationOptions :=
  s.workspace.bind (·.fileOperations)

/-! ## Offers -/

/-- The handlers that a feature is announced for: all of some, or any of some. -/
inductive Backing where
  | all (methods : List String)
  | any (methods : List String)

def Backing.holds (has : String → Bool) : Backing → Bool
  | .all methods => methods.all has
  | .any methods => methods.any has

/-- A feature, the requests that a client may send when it is on, and the handlers behind it. -/
structure Offer where
  feature : ServerCapabilities → Bool
  requests : List String
  backing : Backing

namespace Offer

/-- A feature with a request and a handler of its own. -/
def single (method : String) (feature : ServerCapabilities → Bool) : Offer :=
  ⟨feature, [method], .all [method]⟩

/-- A request that completes the answers to another one, and needs both handlers. -/
def companion (base method : String) (feature : ServerCapabilities → Bool) : Offer :=
  ⟨feature, [method], .all [base, method]⟩

end Offer

namespace ServerCapabilities

/-- What a client may ask for, by what a server says it can do. -/
def offers : List Offer := [
  .single Method.willSaveWaitUntil fun s => s.textDocumentSync.any (·.waitsUntil),
  .single Method.completion (·.completionProvider.isSome),
  .companion Method.completion Method.completionItemResolve
    fun s => s.completionProvider.any (·.resolveProvider == some true),
  .single Method.hover fun s => s.hoverProvider.any (·.isOn),
  .single Method.signatureHelp (·.signatureHelpProvider.isSome),
  .single Method.declaration fun s => s.declarationProvider.any (·.isOn),
  .single Method.definition fun s => s.definitionProvider.any (·.isOn),
  .single Method.typeDefinition fun s => s.typeDefinitionProvider.any (·.isOn),
  .single Method.implementation fun s => s.implementationProvider.any (·.isOn),
  .single Method.references fun s => s.referencesProvider.any (·.isOn),
  .single Method.documentHighlight fun s => s.documentHighlightProvider.any (·.isOn),
  .single Method.documentSymbol fun s => s.documentSymbolProvider.any (·.isOn),
  .single Method.codeAction fun s => s.codeActionProvider.any (·.isOn),
  .companion Method.codeAction Method.codeActionResolve
    fun s => (s.codeActionProvider.bind (·.options?)).any (·.resolveProvider == some true),
  .single Method.codeLens (·.codeLensProvider.isSome),
  .companion Method.codeLens Method.codeLensResolve
    fun s => s.codeLensProvider.any (·.resolveProvider == some true),
  .single Method.documentLink (·.documentLinkProvider.isSome),
  .companion Method.documentLink Method.documentLinkResolve
    fun s => s.documentLinkProvider.any (·.resolveProvider == some true),
  ⟨fun s => s.colorProvider.any (·.isOn), [Method.documentColor, Method.colorPresentation],
    .any [Method.documentColor, Method.colorPresentation]⟩,
  .single Method.formatting fun s => s.documentFormattingProvider.any (·.isOn),
  .single Method.rangeFormatting fun s => s.documentRangeFormattingProvider.any (·.isOn),
  .single Method.onTypeFormatting (·.documentOnTypeFormattingProvider.isSome),
  .single Method.rename fun s => s.renameProvider.any (·.isOn),
  .companion Method.rename Method.prepareRename
    fun s => (s.renameProvider.bind (·.options?)).any (·.prepareProvider == some true),
  .single Method.foldingRange fun s => s.foldingRangeProvider.any (·.isOn),
  .single Method.executeCommand (·.executeCommandProvider.isSome),
  .single Method.selectionRange fun s => s.selectionRangeProvider.any (·.isOn),
  .single Method.linkedEditingRange fun s => s.linkedEditingRangeProvider.any (·.isOn),
  ⟨fun s => s.callHierarchyProvider.any (·.isOn),
    [Method.prepareCallHierarchy, Method.callHierarchyIncomingCalls,
      Method.callHierarchyOutgoingCalls],
    .all [Method.prepareCallHierarchy]⟩,
  ⟨fun s => s.semanticTokensProvider.any (·.get.full.any (·.isOn)), [Method.semanticTokensFull],
    .any [Method.semanticTokensFull, Method.semanticTokensFullDelta]⟩,
  .single Method.semanticTokensFullDelta
    fun s => s.semanticTokensProvider.any (·.get.full == some (.delta (some true))),
  .single Method.semanticTokensRange
    fun s => s.semanticTokensProvider.any (·.get.range.any (·.isSupported)),
  .single Method.moniker fun s => s.monikerProvider.any (·.isOn),
  ⟨fun s => s.typeHierarchyProvider.any (·.isOn),
    [Method.prepareTypeHierarchy, Method.typeHierarchySupertypes, Method.typeHierarchySubtypes],
    .all [Method.prepareTypeHierarchy]⟩,
  .single Method.inlineValue fun s => s.inlineValueProvider.any (·.isOn),
  .single Method.inlayHint fun s => s.inlayHintProvider.any (·.isOn),
  .companion Method.inlayHint Method.inlayHintResolve
    fun s => (s.inlayHintProvider.bind (·.options?)).any (·.resolveProvider == some true),
  ⟨(·.diagnosticProvider.isSome), [Method.diagnostic],
    .any [Method.diagnostic, Method.workspaceDiagnostic]⟩,
  .single Method.workspaceDiagnostic
    fun s => s.diagnosticProvider.any (·.get.workspaceDiagnostics),
  .single Method.workspaceSymbol fun s => s.workspaceSymbolProvider.any (·.isOn),
  .companion Method.workspaceSymbol Method.workspaceSymbolResolve
    fun s => (s.workspaceSymbolProvider.bind (·.options?)).any (·.resolveProvider == some true),
  .single Method.willCreateFiles fun s => s.fileOperations?.any (·.willCreate.isSome),
  .single Method.willRenameFiles fun s => s.fileOperations?.any (·.willRename.isSome),
  .single Method.willDeleteFiles fun s => s.fileOperations?.any (·.willDelete.isSome)]

/-- Every request of a client is on the list. -/
theorem exists_offer : ∀ e ∈ Endpoint.requests, ∃ o ∈ offers, e.method ∈ o.requests := by
  decide +kernel

/-- A client may send requests of a method. -/
def Invites (s : ServerCapabilities) (method : String) : Prop :=
  ∃ o ∈ offers, o.feature s = true ∧ method ∈ o.requests

/-! ## Announcing -/

section

variable {α : Type} (b d : Bool)

/-- A field under a condition is there when the condition holds. -/
@[simp] theorem isSome_given (a : α) : (given b a).isSome = b := by cases b <;> rfl

/-- What holds of a field under a condition holds of its value under the condition. -/
@[simp] theorem any_given (a : α) (p : α → Bool) : (given b a).any p = (b && p a) := by
  cases b <;> rfl

/-- A flag is set when its condition holds. -/
@[simp] theorem flag_beq_true : (flag b == some true) = b := by cases b <;> rfl

/-- A switch is on when its condition holds. -/
@[simp] theorem isOn_switched : (switched (α := α) b).any (·.isOn) = b := by cases b <;> rfl

/-- A provider is on when its condition holds. -/
@[simp] theorem isOn_provided : (provided (α := α) b).any (·.isOn) = b := by cases b <;> rfl

/-- Options are on, like a bare yes. -/
@[simp] theorem isOn_detailed (o : α) :
    (if d then BoolOrOptions.options o else .bool true).isOn = true := by cases d <;> rfl

/-- Options are there when both conditions hold. -/
@[simp] theorem options_detailed (o : α) (p : α → Bool) :
    ((given b (if d then BoolOrOptions.options o else .bool true)).bind (·.options?)).any p =
      (b && (d && p o)) := by
  cases b <;> cases d <;> rfl

/-- A provider is on, with or without options. -/
@[simp] theorem isOn_detailedProvider (o : α) :
    (if d then ProviderCapability.options o else .bool true).isOn = true := by cases d <;> rfl

/-- Options of a provider are there when both conditions hold. -/
@[simp] theorem options_detailedProvider (o : α) (p : α → Bool) :
    ((given b (if d then ProviderCapability.options o else .bool true)).bind (·.options?)).any p =
      (b && (d && p o)) := by
  cases b <;> cases d <;> rfl

/-- Options that are not registered are themselves. -/
@[simp] theorem get_options (o : α) : (OptionsOrRegistration.options o).get = o := rfl

end

variable (has : String → Bool) (c : ServerConfig)

/-- A method of a list is there only if one of the list is. -/
theorem any_and_of_mem {m : String} {methods : List String} (hm : m ∈ methods) :
    (methods.any has && has m) = has m := by
  cases h : has m with
  | false => rw [Bool.and_false]
  | true => rw [List.any_eq_true.2 ⟨m, hm, h⟩, Bool.and_true]

/-- Documents are said to wait until they are saved when the server handles that. -/
theorem waitsUntil_documentSync :
    (documentSync has c).any (·.waitsUntil) = has Method.willSaveWaitUntil := by
  simp only [documentSync, any_given, TextDocumentSyncCapability.waitsUntil, flag_beq_true]
  cases has Method.willSaveWaitUntil <;> simp

/-- Tokens of whole documents are offered for either of two methods. -/
theorem full_semanticTokens :
    (semanticTokens has c).any (·.get.full.any (·.isOn)) =
      (has Method.semanticTokensFull || has Method.semanticTokensFullDelta) := by
  simp only [semanticTokens, List.any_cons, List.any_nil]
  cases has Method.semanticTokensFull <;> cases has Method.semanticTokensFullDelta <;>
    cases has Method.semanticTokensRange <;> rfl

/-- Changes of tokens take the place of a bare yes. -/
theorem bare_semanticTokens :
    (semanticTokens has c).any (·.get.full == some (.bool true)) =
      (has Method.semanticTokensFull && !has Method.semanticTokensFullDelta) := by
  simp only [semanticTokens, List.any_cons, List.any_nil]
  cases has Method.semanticTokensFull <;> cases has Method.semanticTokensFullDelta <;>
    cases has Method.semanticTokensRange <;> rfl

/-- Changes of tokens are offered when the server handles them. -/
theorem delta_semanticTokens :
    (semanticTokens has c).any (·.get.full == some (.delta (some true))) =
      has Method.semanticTokensFullDelta := by
  simp only [semanticTokens, List.any_cons, List.any_nil]
  cases has Method.semanticTokensFull <;> cases has Method.semanticTokensFullDelta <;>
    cases has Method.semanticTokensRange <;> rfl

/-- Tokens of a range are offered when the server handles them. -/
theorem range_semanticTokens :
    (semanticTokens has c).any (·.get.range.any (·.isSupported)) =
      has Method.semanticTokensRange := by
  simp only [semanticTokens, List.any_cons, List.any_nil]
  cases has Method.semanticTokensFull <;> cases has Method.semanticTokensFullDelta <;>
    cases has Method.semanticTokensRange <;> rfl

/-- What is said of files stands in what is said of the workspace. -/
theorem fileOperations?_ofHandled : (ofHandled has c).fileOperations? = fileOperations has := by
  simp only [fileOperations?, ofHandled, workspaceOf]
  cases fileOperations has <;> cases has Method.didChangeWorkspaceFolders <;> rfl

/-- A feature is announced when the handlers behind it are there. -/
theorem feature_ofHandled :
    ∀ o ∈ offers, o.feature (ofHandled has c) = o.backing.holds has := by
  simp only [offers, List.forall_mem_cons, Offer.single, Offer.companion, Backing.holds,
    List.all_cons, List.all_nil, List.any_cons, List.any_nil, fileOperations?_ofHandled]
  -- Each row is left with one field, and with the question when it is there.
  simp only [ofHandled, waitsUntil_documentSync, isSome_given, any_given, flag_beq_true,
    isOn_switched, isOn_provided, isOn_detailed, options_detailed, isOn_detailedProvider,
    options_detailedProvider, full_semanticTokens, delta_semanticTokens, range_semanticTokens,
    get_options, fileOperations, Bool.and_true, Bool.or_false, beq_self_eq_true, true_and]
  refine ⟨?_, any_and_of_mem has (by simp), any_and_of_mem has (by simp),
    any_and_of_mem has (by simp), nofun⟩
  -- Reports of the workspace bring the whole feature, so that they need no other handler.
  cases has Method.diagnostic <;> cases has Method.workspaceDiagnostic <;> rfl

/-- The encoding of positions has no part in it. -/
theorem feature_positionEncoding (s : ServerCapabilities) (e : Option PositionEncodingKind) :
    ∀ o ∈ offers, o.feature { s with positionEncoding := e } = o.feature s := by
  simp [offers, Offer.single, Offer.companion, fileOperations?]

/-- The encoding of positions invites no method. -/
theorem invites_positionEncoding (s : ServerCapabilities) (e : Option PositionEncodingKind)
    (method : String) :
    Invites { s with positionEncoding := e } method ↔ s.Invites method := by
  refine exists_congr fun o => and_congr_right fun ho => ?_
  rw [feature_positionEncoding s e o ho]

/-! ## Serving -/

/-- Requests that may be announced without a handler of their own, each with a handler that has it
announced. -/
def standIns : List (String × String) := [
  (Method.documentColor, Method.colorPresentation),
  (Method.colorPresentation, Method.documentColor),
  (Method.diagnostic, Method.workspaceDiagnostic),
  (Method.semanticTokensFull, Method.semanticTokensFullDelta),
  (Method.callHierarchyIncomingCalls, Method.prepareCallHierarchy),
  (Method.callHierarchyOutgoingCalls, Method.prepareCallHierarchy),
  (Method.typeHierarchySupertypes, Method.prepareTypeHierarchy),
  (Method.typeHierarchySubtypes, Method.prepareTypeHierarchy)]

/-- A handler serves a request or stands in for it. -/
def Vouches (method handled : String) : Prop := handled = method ∨ (method, handled) ∈ standIns

instance (method handled : String) : Decidable (Vouches method handled) :=
  inferInstanceAs (Decidable (_ ∨ _))

end ServerCapabilities

/-- Whatever handlers make the feature come, one of them vouches for the request. -/
def Backing.Vouches (method : String) : Backing → Prop
  | .all methods => ∃ m ∈ methods, ServerCapabilities.Vouches method m
  | .any methods => ∀ m ∈ methods, ServerCapabilities.Vouches method m

instance (method : String) : (b : Backing) → Decidable (b.Vouches method)
  | .all methods => inferInstanceAs (Decidable (∃ m ∈ methods, _))
  | .any methods => inferInstanceAs (Decidable (∀ m ∈ methods, _))

/-- A handler alone makes the feature come. -/
def Backing.Suffices (method : String) : Backing → Prop
  | .all methods => ∀ m ∈ methods, m = method
  | .any methods => method ∈ methods

instance (method : String) : (b : Backing) → Decidable (b.Suffices method)
  | .all methods => inferInstanceAs (Decidable (∀ m ∈ methods, _))
  | .any methods => inferInstanceAs (Decidable (method ∈ methods))

/-- A method that suffices for a feature brings it. -/
theorem Backing.Suffices.holds {method : String} {b : Backing} (h : b.Suffices method)
    {has : String → Bool} (hhas : has method = true) : b.holds has = true := by
  cases b with
  | all methods => exact List.all_eq_true.2 fun m hm => h m hm ▸ hhas
  | any methods => exact List.any_eq_true.2 ⟨method, h, hhas⟩

/-- A feature that is there is backed by a method. -/
theorem Backing.Vouches.exists {method : String} {b : Backing} (h : b.Vouches method)
    {has : String → Bool} (hb : b.holds has = true) :
    ∃ m, has m = true ∧ ServerCapabilities.Vouches method m := by
  cases b with
  | all methods =>
    obtain ⟨m, hm, hv⟩ := h
    exact ⟨m, List.all_eq_true.1 hb m hm, hv⟩
  | any methods =>
    obtain ⟨m, hm, hhas⟩ := List.any_eq_true.1 hb
    exact ⟨m, hhas, h m hm⟩

namespace ServerCapabilities

/-- What invites a method is backed by it, or by one that stands in for it. -/
theorem vouches_offers : ∀ o ∈ offers, ∀ method ∈ o.requests, o.backing.Vouches method := by
  decide +kernel

/-- A request that a client may send has a handler, or one that stands in for it. -/
theorem Invites.exists_vouches {methods : List String} {c : ServerConfig} {method : String}
    (h : (ofMethods methods c).Invites method) : ∃ m ∈ methods, Vouches method m := by
  obtain ⟨o, ho, hfeature, hm⟩ := h
  rw [ofMethods, feature_ofHandled _ c o ho] at hfeature
  obtain ⟨m, hhas, hv⟩ := (vouches_offers o ho method hm).exists hfeature
  exact ⟨m, List.contains_iff_mem.1 hhas, hv⟩

/-- A method that stands in for another one brings a feature that invites it. -/
theorem suffices_standIns :
    ∀ p ∈ standIns, ∃ o ∈ offers, o.backing.Suffices p.2 ∧ p.1 ∈ o.requests := by
  decide +kernel

/-- A handler has announced what it stands in for. -/
theorem invites_of_mem_standIns {methods : List String} {method handled : String}
    (hp : (method, handled) ∈ standIns) (hm : handled ∈ methods) (c : ServerConfig) :
    (ofMethods methods c).Invites method := by
  obtain ⟨o, ho, hsuffices, hrequest⟩ := suffices_standIns _ hp
  refine ⟨o, ho, ?_, hrequest⟩
  rw [ofMethods, feature_ofHandled _ c o ho]
  exact hsuffices.holds (List.contains_iff_mem.2 hm)

/-- Nothing invites the client to exit. -/
theorem Invites.ne_exit {s : ServerCapabilities} {method : String} (h : s.Invites method) :
    method ≠ Method.exit := by
  obtain ⟨o, ho, -, hm⟩ := h
  have hne : ∀ o ∈ offers, ∀ method ∈ o.requests, method ≠ Method.exit := by decide
  exact hne o ho method hm

end ServerCapabilities

namespace Handler

variable {σ : Type}

/-- What a callback ends with is a success or a failure. -/
theorem conclude_ne_methodNotFound (method : String) (e : Ending × Handler × σ) :
    (conclude method e).1 ≠ .result .methodNotFound := by
  obtain ⟨ending, h, w⟩ := e
  cases ending with
  | done outcome => cases outcome <;> nofun
  | panicked _ | stuck => nofun

/-- A message that passes is answered by its method not being found when there is no callback for
it, and never else. -/
theorem handle_eq_methodNotFound_iff (hooks : Hooks σ) {h : Handler} {x : Context}
    (hp : h.Passes x.method) (hm : x.method ≠ Method.exit) (token : Bool) (w : σ) :
    (h.handle hooks x token w).1 = .result .methodNotFound ↔ x.method ∉ h.methods := by
  rw [← get?_eq_none_iff]
  cases he : h.entries.get? x.method with
  | none => simp only [handle_of_refuse hooks (decide_of_unknown token he hp hm)]
  | some entry =>
    -- A method that is known has a result of its own, whatever comes of the message.
    refine iff_of_false (fun hr => ?_) nofun
    by_cases hd : x.IsDue token
    case neg =>
      rw [handle_of_refuse hooks (decide_of_not_due he hp hd)] at hr
      cases hr
    case pos =>
      have hdecide := decide_of_handles he hp hd
      cases hs : entry.start x with
      | error e =>
        rw [handle_of_error hooks hdecide hs] at hr
        cases hr
      | ok activity =>
        rw [handle_of_ok hooks hdecide hs] at hr
        exact conclude_ne_methodNotFound _ _ hr

end Handler

namespace ServerCapabilities

/-- What is announced, and what is served of it.  A feature is announced when the handlers behind it
are there.  So a client may send a request that has no handler just when another one stands in for
it, and only then it is answered by its method not being found, as long as the handlers stay the
same. -/
theorem served_ofMethods {σ : Type} (hooks : Hooks σ) (S : List String) (c : ServerConfig) :
    (∀ o ∈ offers, o.feature (ofMethods S c) = o.backing.holds fun m => S.contains m) ∧
    (ofMethods S c).semanticTokensProvider.any (·.get.full == some (.bool true)) =
      (S.contains Method.semanticTokensFull && !S.contains Method.semanticTokensFullDelta) ∧
    (∀ m, m ∉ S → ((ofMethods S c).Invites m ↔ ∃ s ∈ S, (m, s) ∈ standIns)) ∧
    ∀ (h h' : Handler) (params : InitializeParams) (x : Context) (token : Bool) (w : σ),
      (h.outlook.initializeResult params).capabilities.Invites x.method →
      (∀ m, m ∈ h'.methods ↔ m ∈ h.methods) → h'.life.state = .initialized →
      ((h'.handle hooks x token w).1 = .result .methodNotFound ↔ x.method ∉ h'.methods) ∧
      (x.method ∉ h'.methods → ∃ s ∈ h'.methods, (x.method, s) ∈ standIns) := by
  -- What is invited is known, or another method stands in for it.
  have hstand {T : List String} {c : ServerConfig} {m : String} (hi : (ofMethods T c).Invites m)
      (hm : m ∉ T) : ∃ s ∈ T, (m, s) ∈ standIns := by
    obtain ⟨s, hs, rfl | hp⟩ := hi.exists_vouches
    · exact absurd hs hm
    · exact ⟨s, hs, hp⟩
  refine ⟨feature_ofHandled _ c, bare_semanticTokens _ c, fun m hm => ?_, ?_⟩
  · exact ⟨fun hi => hstand hi hm, fun ⟨s, hs, hp⟩ => invites_of_mem_standIns hp hs c⟩
  intro h h' params x token w hi hsame hlife
  have hi' : (ofMethods h.methods h.config).Invites x.method :=
    (invites_positionEncoding _ _ _).1 hi
  refine ⟨Handler.handle_eq_methodNotFound_iff hooks (.inr (.inr hlife)) hi.ne_exit token w, ?_⟩
  intro hm
  obtain ⟨s, hs, hp⟩ := hstand hi' fun hin => hm ((hsame _).2 hin)
  exact ⟨s, (hsame s).2 hs, hp⟩

/-- A server that serves one request and announces another one in its place. -/
def exampleHandler : Handler :=
  ((Handler.ofConfig .default).onRequest .hover fun _ _ => pure (.ok none)).onRequest
    .colorPresentation fun _ _ => pure (.ok [])

/-- The handler when it has answered `initialize`. -/
def exampleInitialized : Handler := { exampleHandler with life := { state := .initialized } }

/-- A handler that knows `textDocument/hover` invites it and serves it. -/
theorem served_exampleHandler :
    (exampleHandler.outlook.initializeResult {}).capabilities.Invites Method.hover ∧
    (∀ m, m ∈ exampleInitialized.methods ↔ m ∈ exampleHandler.methods) ∧
    exampleInitialized.life.state = .initialized ∧
    ((exampleInitialized.handle (.detached fun entry notes => notes ++ [entry])
        { method := Method.hover, id := some (.int 1) } false []).1 = .result .methodNotFound ↔
      Method.hover ∉ exampleInitialized.methods) := by
  have hi : (exampleHandler.outlook.initializeResult {}).capabilities.Invites Method.hover :=
    ⟨.single Method.hover fun s => s.hoverProvider.any (·.isOn), by simp [offers], rfl,
      List.mem_singleton_self _⟩
  -- The state has moved on since the capabilities were derived, and the methods are the same.
  have hsame (m : String) : m ∈ exampleInitialized.methods ↔ m ∈ exampleHandler.methods := .rfl
  obtain ⟨-, -, -, hserved⟩ :=
    served_ofMethods (.detached fun entry notes => notes ++ [entry]) [] .default
  exact ⟨hi, hsame, rfl, (hserved exampleHandler exampleInitialized {}
    { method := Method.hover, id := some (.int 1) } false [] hi hsame rfl).1⟩

/-- One half each of three features. -/
def exampleHalves : List String :=
  [Method.colorPresentation, Method.workspaceDiagnostic, Method.semanticTokensFullDelta]

/-- The other half of a pair of methods is invited, but not known. -/
theorem unserved_exampleHalves :
    (ofMethods exampleHalves .default).colorProvider.isSome = true ∧
    Method.documentColor ∉ exampleHalves ∧
    (ofMethods exampleHalves .default).diagnosticProvider.isSome = true ∧
    Method.diagnostic ∉ exampleHalves ∧
    (ofMethods exampleHalves .default).semanticTokensProvider.any (·.get.full.isSome) = true ∧
    Method.semanticTokensFull ∉ exampleHalves ∧
    (exampleHandler.outlook.initializeResult {}).capabilities.colorProvider.isSome = true ∧
    (exampleInitialized.handle (.detached fun entry notes => notes ++ [entry])
        { method := Method.documentColor, id := some (.int 1) } false []).1 =
      .result .methodNotFound := by
  refine ⟨rfl, by decide, rfl, by decide, rfl, by decide, rfl, rfl⟩

end ServerCapabilities

end LanguageServer
