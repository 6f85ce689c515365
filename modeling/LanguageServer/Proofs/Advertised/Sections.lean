import LanguageServer.Proofs.Advertised.Served
import LanguageServer.Proofs.Protocol.ServerCapabilities

/-!
# Every method has one place in what is announced

What a server announces falls into sections, one for each feature.  `ServerCapabilities.sections`
says which handlers bring a section and which ones only change what it says.

`ServerCapabilities.apart_ofMethods` says that a handler makes no difference outside its own
section, and that a section is there exactly when handlers that bring it are.
-/

namespace LanguageServer

/-- Two records have the same fields under the keys in question. -/
def Fields.AgreeOn {σ : Type} (p : String → Prop) (x y : σ) : {τ : Type} → Fields σ τ → Prop
  | _, .done => True
  | _, .own key get _ rest => (p key → get x = get y) ∧ rest.AgreeOn p x y
  | _, .part get _ rest => get x = get y ∧ rest.AgreeOn p x y

/-- The members of a record are there or not as a rule says of their keys. -/
def Fields.ThereIf {σ : Type} (p : String → Bool) (x : σ) : {τ : Type} → Fields σ τ → Prop
  | _, .done => True
  | _, .own key get f rest => (f.encode (get x)).isSome = p key ∧ rest.ThereIf p x
  | _, .part _ _ rest => rest.ThereIf p x

/-- Whether a field is there is said of it under its key. -/
theorem Fields.ThereIf.isSome_eq {σ τ : Type} {p : String → Bool} {x : σ} {fs : Fields σ τ}
    (h : fs.ThereIf p x) {look spare : String → Option Json} (hs : fs.Shows look spare x)
    {key : String} (hk : key ∈ fs.keys) : (look key).isSome = p key := by
  induction fs with
  | done => cases hk
  | own key' get f rest ih =>
    rcases List.mem_cons.1 hk with rfl | hk
    · rw [hs.1, h.1]
    · exact ih h.2 hs.2 hk
  | part get q rest ih => exact ih h hs.2 hk

namespace ServerCapabilities

/-! ## Sections -/

/-- A member of what is announced. All the handlers of one of the lists in `bringing` bring it;
`companions` only have a say in it when it is there. -/
structure Section where
  key : String
  bringing : List (List String)
  companions : List String := []
deriving DecidableEq

namespace Section

/-- The methods that belong to a section. -/
def methods (s : Section) : List String := s.bringing.flatten ++ s.companions

/-- Whether handlers bring the section. -/
def isBrought (has : String → Bool) (s : Section) : Bool := s.bringing.any (·.all has)

/-- A section that one handler brings. -/
def single (key method : String) (companions : List String := []) : Section :=
  ⟨key, [[method]], companions⟩

/-- A section that any of some handlers brings. -/
def anyOf (key : String) (methods : List String) : Section := ⟨key, methods.map ([·]), []⟩

/-- A section that any of its methods brings is there when any of them is. -/
theorem isBrought_anyOf (key : String) (methods : List String) (has : String → Bool) :
    (anyOf key methods).isBrought has = methods.any has := by
  rw [isBrought, anyOf, List.any_map]
  congr 1
  funext m
  exact Bool.and_true _

end Section

/-- What a server may announce. -/
def sections : List Section := [
  ⟨"textDocumentSync", [[Method.didOpen, Method.didClose], [Method.didChange], [Method.willSave],
    [Method.willSaveWaitUntil], [Method.didSave]], []⟩,
  .anyOf "notebookDocumentSync" [Method.notebookDocumentDidOpen, Method.notebookDocumentDidChange,
    Method.notebookDocumentDidSave, Method.notebookDocumentDidClose],
  .single "completionProvider" Method.completion [Method.completionItemResolve],
  .single "hoverProvider" Method.hover,
  .single "signatureHelpProvider" Method.signatureHelp,
  .single "declarationProvider" Method.declaration,
  .single "definitionProvider" Method.definition,
  .single "typeDefinitionProvider" Method.typeDefinition,
  .single "implementationProvider" Method.implementation,
  .single "referencesProvider" Method.references,
  .single "documentHighlightProvider" Method.documentHighlight,
  .single "documentSymbolProvider" Method.documentSymbol,
  .single "codeActionProvider" Method.codeAction [Method.codeActionResolve],
  .single "codeLensProvider" Method.codeLens [Method.codeLensResolve],
  .single "documentLinkProvider" Method.documentLink [Method.documentLinkResolve],
  .anyOf "colorProvider" [Method.documentColor, Method.colorPresentation],
  .single "documentFormattingProvider" Method.formatting,
  .single "documentRangeFormattingProvider" Method.rangeFormatting,
  .single "documentOnTypeFormattingProvider" Method.onTypeFormatting,
  .single "renameProvider" Method.rename [Method.prepareRename],
  .single "foldingRangeProvider" Method.foldingRange,
  .single "executeCommandProvider" Method.executeCommand,
  .single "selectionRangeProvider" Method.selectionRange,
  .single "linkedEditingRangeProvider" Method.linkedEditingRange,
  .single "callHierarchyProvider" Method.prepareCallHierarchy,
  .anyOf "semanticTokensProvider" [Method.semanticTokensFull, Method.semanticTokensFullDelta,
    Method.semanticTokensRange],
  .single "monikerProvider" Method.moniker,
  .single "typeHierarchyProvider" Method.prepareTypeHierarchy,
  .single "inlineValueProvider" Method.inlineValue,
  .single "inlayHintProvider" Method.inlayHint [Method.inlayHintResolve],
  .anyOf "diagnosticProvider" [Method.diagnostic, Method.workspaceDiagnostic],
  .single "workspaceSymbolProvider" Method.workspaceSymbol [Method.workspaceSymbolResolve],
  .anyOf "workspace" [Method.didChangeWorkspaceFolders, Method.didCreateFiles,
    Method.willCreateFiles, Method.didRenameFiles, Method.willRenameFiles, Method.didDeleteFiles,
    Method.willDeleteFiles]]

/-- The section under a key. -/
def section? (key : String) : Option Section := sections.find? fun s => s.key = key

/-- The section that a method belongs to, if it belongs to one. -/
def home? (method : String) : Option Section := sections.find? fun s => s.methods.contains method

/-- The methods that only have a say in sections that other handlers bring. -/
def companions : List String := sections.flatMap (·.companions)

/-- The methods that belong to the section under a key. -/
def methodsOf (key : String) : List String := (section? key).elim [] Section.methods

/-- A method belongs to one section only. -/
theorem home?_of_mem : ∀ s ∈ sections, ∀ m ∈ s.methods, home? m = some s := by
  decide +kernel

/-- No section is brought by companions alone. -/
theorem exists_not_mem_companions :
    ∀ s ∈ sections, ∀ methods ∈ s.bringing, ∃ m ∈ methods, m ∉ companions := by
  decide +kernel

/-- A section stands under a key of the capabilities. -/
theorem key_mem : ∀ s ∈ sections, s.key ∈ record.fields.keys := by
  decide +kernel

/-- The section of a key is a section of that key. -/
theorem section?_eq_some {key : String} {s : Section} (h : section? key = some s) :
    s ∈ sections ∧ s.key = key := by
  rw [section?] at h
  exact ⟨List.mem_of_find?_eq_some h, by simpa using List.find?_some h⟩

/-- Outside the section that a method belongs to, no section knows the method. -/
theorem not_mem_methodsOf {m key : String} (h : (home? m).map (·.key) ≠ some key) :
    m ∉ methodsOf key := by
  intro hm
  cases hs : section? key with
  | none => simp [methodsOf, hs] at hm
  | some s =>
    obtain ⟨hmem, rfl⟩ := section?_eq_some hs
    rw [methodsOf, hs] at hm
    exact h (congrArg _ (home?_of_mem s hmem m hm))

/-! ## What a section depends on -/

section

variable {has has' : String → Bool} (c : ServerConfig)

/-- What is said of documents depends on their methods only. -/
theorem documentSync_congr (h : ∀ m ∈ methodsOf "textDocumentSync", has m = has' m) :
    documentSync has c = documentSync has' c := by
  simp only [documentSync, h Method.didOpen (by decide), h Method.didClose (by decide),
    h Method.didChange (by decide), h Method.willSave (by decide),
    h Method.willSaveWaitUntil (by decide), h Method.didSave (by decide)]

/-- What is said of notebooks depends on their methods only. -/
theorem notebookSync_congr (h : ∀ m ∈ methodsOf "notebookDocumentSync", has m = has' m) :
    notebookSync has = notebookSync has' := by
  simp only [notebookSync, List.any_cons, List.any_nil,
    h Method.notebookDocumentDidOpen (by decide), h Method.notebookDocumentDidChange (by decide),
    h Method.notebookDocumentDidSave (by decide), h Method.notebookDocumentDidClose (by decide)]

/-- What is said of semantic tokens depends on their methods only. -/
theorem semanticTokens_congr (h : ∀ m ∈ methodsOf "semanticTokensProvider", has m = has' m) :
    semanticTokens has c = semanticTokens has' c := by
  simp only [semanticTokens, List.any_cons, List.any_nil,
    h Method.semanticTokensFull (by decide), h Method.semanticTokensFullDelta (by decide),
    h Method.semanticTokensRange (by decide)]

/-- What is said of the workspace depends on its methods only. -/
theorem workspaceOf_congr (h : ∀ m ∈ methodsOf "workspace", has m = has' m) :
    workspaceOf has = workspaceOf has' := by
  simp only [workspaceOf, fileOperations, List.any_cons, List.any_nil,
    h Method.didChangeWorkspaceFolders (by decide), h Method.didCreateFiles (by decide),
    h Method.willCreateFiles (by decide), h Method.didRenameFiles (by decide),
    h Method.willRenameFiles (by decide), h Method.didDeleteFiles (by decide),
    h Method.willDeleteFiles (by decide)]

/-- What a section says depends on the methods that belong to it. -/
theorem agreeOn_ofHandled {p : String → Prop}
    (h : ∀ key, p key → ∀ m ∈ methodsOf key, has m = has' m) :
    record.fields.AgreeOn p (ofHandled has c) (ofHandled has' c) := by
  have same {α : Type} {key m : String} (hm : m ∈ methodsOf key) (f : Bool → α) (hp : p key) :
      f (has m) = f (has' m) := congrArg f (h key hp m hm)
  refine ⟨fun _ => rfl, fun hp => documentSync_congr c (h _ hp),
    fun hp => notebookSync_congr (h _ hp), ?completion, same (by decide) switched, ?signatureHelp,
    same (by decide) provided, same (by decide) switched, same (by decide) provided,
    same (by decide) provided, same (by decide) switched, same (by decide) switched,
    same (by decide) switched, ?codeAction, ?codeLens, ?documentLink, ?color,
    same (by decide) switched, same (by decide) switched, ?onTypeFormatting, ?rename,
    same (by decide) provided, ?executeCommand, same (by decide) provided,
    same (by decide) provided, same (by decide) provided,
    fun hp => semanticTokens_congr c (h _ hp), same (by decide) provided,
    same (by decide) provided, same (by decide) provided, ?inlayHint, ?diagnostic,
    ?workspaceSymbol, fun hp => workspaceOf_congr (h _ hp), fun _ => rfl, trivial⟩
  case signatureHelp => exact same (m := Method.signatureHelp) (by decide) (given · _)
  case onTypeFormatting => exact same (m := Method.onTypeFormatting) (by decide) (given · _)
  case executeCommand => exact same (m := Method.executeCommand) (by decide) (given · _)
  -- The other sections look at two methods each.
  all_goals intro hp; simp only [ofHandled]
  case completion =>
    rw [h _ hp Method.completion (by decide), h _ hp Method.completionItemResolve (by decide)]
  case codeAction =>
    rw [h _ hp Method.codeAction (by decide), h _ hp Method.codeActionResolve (by decide)]
  case codeLens =>
    rw [h _ hp Method.codeLens (by decide), h _ hp Method.codeLensResolve (by decide)]
  case documentLink =>
    rw [h _ hp Method.documentLink (by decide), h _ hp Method.documentLinkResolve (by decide)]
  case color =>
    rw [h _ hp Method.documentColor (by decide), h _ hp Method.colorPresentation (by decide)]
  case rename => rw [h _ hp Method.rename (by decide), h _ hp Method.prepareRename (by decide)]
  case inlayHint =>
    rw [h _ hp Method.inlayHint (by decide), h _ hp Method.inlayHintResolve (by decide)]
  case diagnostic =>
    rw [h _ hp Method.diagnostic (by decide), h _ hp Method.workspaceDiagnostic (by decide)]
  case workspaceSymbol =>
    rw [h _ hp Method.workspaceSymbol (by decide), h _ hp Method.workspaceSymbolResolve (by decide)]

/-! ## When a section is there -/

/-- Every section is there when handlers bring it. -/
theorem thereIf_ofHandled (has : String → Bool) :
    record.fields.ThereIf (fun key => (section? key).any (·.isBrought has)) (ofHandled has c) := by
  have there {α : Type} (f : Codec α) {b b' : Bool} (a : α) (hb : b = b') :
      ((Field.optional f).encode (given b a)).isSome = b' := by
    rw [← hb]
    exact Option.isSome_map.trans (isSome_given b a)
  have alone (b : Bool) : b = ((b && true) || false) := by simp
  have either (b b' : Bool) : (b || b') = ((b && true) || ((b' && true) || false)) := by simp
  refine ⟨rfl, there _ _ ?documentSync, there _ _ ?notebookSync, there _ _ (alone _),
    there _ _ (alone _), there _ _ (alone _), there _ _ (alone _), there _ _ (alone _),
    there _ _ (alone _), there _ _ (alone _), there _ _ (alone _), there _ _ (alone _),
    there _ _ (alone _), there _ _ (alone _), there _ _ (alone _), there _ _ (alone _),
    there _ _ (either _ _), there _ _ (alone _), there _ _ (alone _), there _ _ (alone _),
    there _ _ (alone _), there _ _ (alone _), there _ _ (alone _), there _ _ (alone _),
    there _ _ (alone _), there _ _ (alone _), there _ _ ?semanticTokens, there _ _ (alone _),
    there _ _ (alone _), there _ _ (alone _), there _ _ (alone _), there _ _ (either _ _),
    there _ _ (alone _), there _ _ ?workspace, rfl, trivial⟩
  -- Sections that do not have just one or two methods to bring them.
  case documentSync =>
    change _ = Section.isBrought has _
    simp only [Section.isBrought, List.any_cons, List.any_nil, List.all_cons, List.all_nil,
      Bool.and_true, Bool.or_false, id_eq]
  case notebookSync => exact (Section.isBrought_anyOf ..).symm
  case semanticTokens => exact (Section.isBrought_anyOf ..).symm
  case workspace =>
    refine Eq.trans ?_ (Section.isBrought_anyOf ..).symm
    rw [fileOperations, isSome_given, isSome_given]
    rfl

/-- What is written of the capabilities shows their fields. -/
theorem shows_encode_ofHandled (has : String → Bool) :
    record.fields.Shows (fun k => (codec.encode (ofHandled has c)).member? k)
      (fun k => (codec.encode (ofHandled has c)).member? k) (ofHandled has c) :=
  Record.shows_encode nodup_keys (fields_readsBack (.omitted rfl rfl))

/-- A section is there exactly when handlers bring it, and nothing else is. -/
theorem isSome_member?_ofHandled (has : String → Bool) (key : String) :
    ((codec.encode (ofHandled has c)).member? key).isSome =
      (section? key).any (·.isBrought has) := by
  -- Under any other key nothing is written, and there is no section of it.
  by_cases hk : key ∈ record.fields.keys
  · exact (thereIf_ofHandled c has).isSome_eq (shows_encode_ofHandled c has) hk
  · have hnone : (codec.encode (ofHandled has c)).member? key = none :=
      Record.member?_eq_none (fields_readsBack (.omitted rfl rfl)) key
        (by simpa [record, Fields.keys, Fields.partKeys] using hk)
    cases hs : section? key with
    | none => rw [hnone]; rfl
    | some s =>
      obtain ⟨hmem, rfl⟩ := section?_eq_some hs
      exact absurd (key_mem s hmem) hk

end

/-- A handler makes no difference outside the section that its method belongs to, and none at all if
the method belongs to no section. A section is there exactly when handlers that bring it are, so
that companions alone bring nothing. Neither an encoding of positions nor an experimental value is
announced. -/
theorem apart_ofMethods (S : List String) (c : ServerConfig) :
    (∀ m, record.fields.AgreeOn (fun key => (home? m).map (·.key) ≠ some key)
      (ofMethods (m :: S) c) (ofMethods (S.filter (· ≠ m)) c)) ∧
    (∀ key, ((codec.encode (ofMethods S c)).member? key).isSome =
      (section? key).any (·.isBrought fun m => S.contains m)) ∧
    (∀ key, (codec.encode (ofMethods (S.filter fun m => companions.contains m) c)).member? key =
      none) ∧
    (ofMethods S c).positionEncoding = none ∧ (ofMethods S c).experimental = none := by
  refine ⟨fun m => agreeOn_ofHandled c fun key hkey m' hm' => ?_,
    fun key => isSome_member?_ofHandled c _ key, fun key => ?_, rfl, rfl⟩
  · have hne : m' ≠ m := fun he => not_mem_methodsOf hkey (he ▸ hm')
    simp [hne]
  · refine Option.not_isSome_iff_eq_none.1 fun h => ?_
    rw [ofMethods, isSome_member?_ofHandled] at h
    obtain ⟨s, hs, hb⟩ := (Option.any_eq_true _ _).1 h
    obtain ⟨methods, hmethods, hall⟩ := List.any_eq_true.1 hb
    -- Among the methods that bring the section there is one that is no companion.
    obtain ⟨m, hm, hnot⟩ := exists_not_mem_companions s (section?_eq_some hs).1 methods hmethods
    have hhas := List.all_eq_true.1 hall m hm
    rw [List.contains_iff_mem, List.mem_filter, List.contains_iff_mem] at hhas
    exact hnot hhas.2

end ServerCapabilities

end LanguageServer
