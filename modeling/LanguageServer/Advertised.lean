import LanguageServer.Config
import LanguageServer.Method
import LanguageServer.Protocol.ServerCapabilities

/-!
# What is announced

`ServerCapabilities.ofMethods` derives what a server says it can do from the methods it has handlers
for.  Every feature is a function of the question which methods of its own are there, so that the
order and the repetition of methods do not count, and a further handler takes nothing back.
-/

namespace LanguageServer

namespace ServerCapabilities

/-- A list as an option that is left out when there is nothing to say. -/
def nonEmpty {α : Type} (as : List α) : Option (List α) := if as.isEmpty then none else some as

/-- True, or nothing to say. -/
def flag (b : Bool) : Option Bool := if b then some true else none

/-- A value, or nothing to say. -/
def given {α : Type} (b : Bool) (a : α) : Option α := if b then some a else none

/-- A feature that needs no options. -/
def switched {α : Type} (b : Bool) : Option (BoolOrOptions α) := given b (.bool true)

/-- A feature that needs no options and could have been registered. -/
def provided {α : Type} (b : Bool) : Option (ProviderCapability α) := given b (.bool true)

/-- Opening and closing are announced together, changes, saves and what comes before a save each on
its own. -/
def documentSync (has : String → Bool) (c : ServerConfig) : Option TextDocumentSyncCapability :=
  let openClose := has Method.didOpen && has Method.didClose
  let parts := [openClose, has Method.didChange, has Method.willSave, has Method.willSaveWaitUntil,
    has Method.didSave]
  given (parts.any id) <| .options
    { openClose := flag openClose
      change := given (has Method.didChange) c.textDocumentSync.kind
      willSave := flag (has Method.willSave)
      willSaveWaitUntil := flag (has Method.willSaveWaitUntil)
      save := given (has Method.didSave)
        (if c.saveIncludeText then .options { includeText := some true } else .bool true) }

/-- Any notebook, if there is a handler for one of its notifications. -/
def notebookSync (has : String → Bool) : Option NotebookDocumentSyncCapability :=
  let methods := [Method.notebookDocumentDidOpen, Method.notebookDocumentDidChange,
    Method.notebookDocumentDidSave, Method.notebookDocumentDidClose]
  given (methods.any has) <| .options
    { notebookSelector := [{ notebook := some (.string "*"), cells := none }]
      save := flag (has Method.notebookDocumentDidSave) }

/-- Changes of tokens are announced in place of all of them. -/
def semanticTokens (has : String → Bool) (c : ServerConfig) :
    Option (OptionsOrRegistration SemanticTokensOptions) :=
  let methods := [Method.semanticTokensFull, Method.semanticTokensFullDelta,
    Method.semanticTokensRange]
  given (methods.any has) <| .options
    { legend := c.semanticTokensLegend
      range := given (has Method.semanticTokensRange) (.bool true)
      full :=
        if has Method.semanticTokensFullDelta then some (.delta (some true))
        else given (has Method.semanticTokensFull) (.bool true) }

/-- The first trigger character and the others. -/
def onTypeFormatting (c : ServerConfig) : DocumentOnTypeFormattingOptions :=
  { firstTriggerCharacter := c.onTypeFormattingTriggerCharacters.headD ""
    moreTriggerCharacter := nonEmpty c.onTypeFormattingTriggerCharacters.tail }

/-- The operations on files that there is a handler for, whatever the file. -/
def fileOperations (has : String → Bool) : Option FileOperationOptions :=
  let every (method : String) : Option FileOperationRegistrationOptions :=
    given (has method) { filters := [] }
  let methods := [Method.didCreateFiles, Method.willCreateFiles, Method.didRenameFiles,
    Method.willRenameFiles, Method.didDeleteFiles, Method.willDeleteFiles]
  given (methods.any has)
    { didCreate := every Method.didCreateFiles
      willCreate := every Method.willCreateFiles
      didRename := every Method.didRenameFiles
      willRename := every Method.willRenameFiles
      didDelete := every Method.didDeleteFiles
      willDelete := every Method.willDeleteFiles }

/-- Workspace folders and operations on files. -/
def workspaceOf (has : String → Bool) : Option WorkspaceServerCapabilities :=
  let folders : Option WorkspaceFoldersServerCapabilities :=
    given (has Method.didChangeWorkspaceFolders)
      { supported := some true, changeNotifications := some (.bool true) }
  let files := fileOperations has
  given (folders.isSome || files.isSome) { workspaceFolders := folders, fileOperations := files }

/-- What a server with handlers for certain methods can do. -/
def ofHandled (has : String → Bool) (c : ServerConfig) : ServerCapabilities where
  textDocumentSync := documentSync has c
  notebookDocumentSync := notebookSync has
  completionProvider := given (has Method.completion)
    { triggerCharacters := nonEmpty c.completionTriggerCharacters
      resolveProvider := flag (has Method.completionItemResolve) }
  hoverProvider := switched (has Method.hover)
  signatureHelpProvider := given (has Method.signatureHelp)
    { triggerCharacters := nonEmpty c.signatureHelpTriggerCharacters }
  declarationProvider := provided (has Method.declaration)
  definitionProvider := switched (has Method.definition)
  typeDefinitionProvider := provided (has Method.typeDefinition)
  implementationProvider := provided (has Method.implementation)
  referencesProvider := switched (has Method.references)
  documentHighlightProvider := switched (has Method.documentHighlight)
  documentSymbolProvider := switched (has Method.documentSymbol)
  codeActionProvider := given (has Method.codeAction)
    (if has Method.codeActionResolve then .options { resolveProvider := some true } else .bool true)
  codeLensProvider := given (has Method.codeLens)
    { resolveProvider := flag (has Method.codeLensResolve) }
  documentLinkProvider := given (has Method.documentLink)
    { resolveProvider := flag (has Method.documentLinkResolve) }
  colorProvider := provided (has Method.documentColor || has Method.colorPresentation)
  documentFormattingProvider := switched (has Method.formatting)
  documentRangeFormattingProvider := switched (has Method.rangeFormatting)
  documentOnTypeFormattingProvider := given (has Method.onTypeFormatting) (onTypeFormatting c)
  renameProvider := given (has Method.rename)
    (if has Method.prepareRename then .options { prepareProvider := some true } else .bool true)
  foldingRangeProvider := provided (has Method.foldingRange)
  executeCommandProvider := given (has Method.executeCommand) { commands := c.commands }
  selectionRangeProvider := provided (has Method.selectionRange)
  linkedEditingRangeProvider := provided (has Method.linkedEditingRange)
  callHierarchyProvider := provided (has Method.prepareCallHierarchy)
  semanticTokensProvider := semanticTokens has c
  monikerProvider := provided (has Method.moniker)
  typeHierarchyProvider := provided (has Method.prepareTypeHierarchy)
  inlineValueProvider := provided (has Method.inlineValue)
  inlayHintProvider := given (has Method.inlayHint)
    (if has Method.inlayHintResolve then .options { resolveProvider := some true } else .bool true)
  diagnosticProvider := given (has Method.diagnostic || has Method.workspaceDiagnostic)
    (.options { workspaceDiagnostics := has Method.workspaceDiagnostic })
  workspaceSymbolProvider := given (has Method.workspaceSymbol)
    (if has Method.workspaceSymbolResolve then .options { resolveProvider := some true }
      else .bool true)
  workspace := workspaceOf has

/-- What a server with handlers for these methods can do. -/
def ofMethods (methods : List String) (c : ServerConfig) : ServerCapabilities :=
  ofHandled (fun m => methods.contains m) c

end ServerCapabilities

end LanguageServer
