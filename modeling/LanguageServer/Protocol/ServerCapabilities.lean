import LanguageServer.Protocol.CodeAction
import LanguageServer.Protocol.Completion
import LanguageServer.Protocol.DiagnosticReport
import LanguageServer.Protocol.DocumentSync
import LanguageServer.Protocol.FileOperation
import LanguageServer.Protocol.Formatting
import LanguageServer.Protocol.Notebook
import LanguageServer.Protocol.Rename
import LanguageServer.Protocol.SemanticTokens
import LanguageServer.Protocol.Signature
import LanguageServer.Protocol.Symbol
import LanguageServer.Protocol.Workspace

/-!
# What a server can do

A server answers the first request by what it can do.  A feature that is not mentioned is not there.
-/

namespace LanguageServer

/-- What a server can do with the workspace. -/
structure WorkspaceServerCapabilities where
  workspaceFolders : Option WorkspaceFoldersServerCapabilities := none
  fileOperations : Option FileOperationOptions := none

def WorkspaceServerCapabilities.record : Record WorkspaceServerCapabilities :=
  ⟨"WorkspaceServerCapabilities", WorkspaceServerCapabilities.mk,
    .own "workspaceFolders" (·.workspaceFolders)
      (.optional WorkspaceFoldersServerCapabilities.codec) <|
    .own "fileOperations" (·.fileOperations) (.optional FileOperationOptions.codec) .done⟩

def WorkspaceServerCapabilities.codec : Codec WorkspaceServerCapabilities :=
  WorkspaceServerCapabilities.record.codec

/-- What a server can do. -/
structure ServerCapabilities where
  positionEncoding : Option PositionEncodingKind := none
  textDocumentSync : Option TextDocumentSyncCapability := none
  notebookDocumentSync : Option NotebookDocumentSyncCapability := none
  completionProvider : Option CompletionOptions := none
  hoverProvider : Option (BoolOrOptions WorkDoneProgressOptions) := none
  signatureHelpProvider : Option SignatureHelpOptions := none
  declarationProvider : Option (ProviderCapability WorkDoneProgressOptions) := none
  definitionProvider : Option (BoolOrOptions WorkDoneProgressOptions) := none
  typeDefinitionProvider : Option (ProviderCapability WorkDoneProgressOptions) := none
  implementationProvider : Option (ProviderCapability WorkDoneProgressOptions) := none
  referencesProvider : Option (BoolOrOptions WorkDoneProgressOptions) := none
  documentHighlightProvider : Option (BoolOrOptions WorkDoneProgressOptions) := none
  documentSymbolProvider : Option (BoolOrOptions DocumentSymbolOptions) := none
  codeActionProvider : Option (BoolOrOptions CodeActionOptions) := none
  codeLensProvider : Option ResolveOptions := none
  documentLinkProvider : Option ResolveOptions := none
  colorProvider : Option (ProviderCapability WorkDoneProgressOptions) := none
  documentFormattingProvider : Option (BoolOrOptions WorkDoneProgressOptions) := none
  documentRangeFormattingProvider : Option (BoolOrOptions WorkDoneProgressOptions) := none
  documentOnTypeFormattingProvider : Option DocumentOnTypeFormattingOptions := none
  renameProvider : Option (BoolOrOptions RenameOptions) := none
  foldingRangeProvider : Option (ProviderCapability WorkDoneProgressOptions) := none
  executeCommandProvider : Option ExecuteCommandOptions := none
  selectionRangeProvider : Option (ProviderCapability WorkDoneProgressOptions) := none
  linkedEditingRangeProvider : Option (ProviderCapability WorkDoneProgressOptions) := none
  callHierarchyProvider : Option (ProviderCapability WorkDoneProgressOptions) := none
  semanticTokensProvider : Option (OptionsOrRegistration SemanticTokensOptions) := none
  monikerProvider : Option (ProviderCapability WorkDoneProgressOptions) := none
  typeHierarchyProvider : Option (ProviderCapability WorkDoneProgressOptions) := none
  inlineValueProvider : Option (ProviderCapability WorkDoneProgressOptions) := none
  inlayHintProvider : Option (ProviderCapability ResolveOptions) := none
  diagnosticProvider : Option (OptionsOrRegistration DiagnosticOptions) := none
  workspaceSymbolProvider : Option (BoolOrOptions ResolveOptions) := none
  workspace : Option WorkspaceServerCapabilities := none
  experimental : Option LspAny := none
deriving Inhabited

def ServerCapabilities.record : Record ServerCapabilities :=
  ⟨"ServerCapabilities", ServerCapabilities.mk,
    .own "positionEncoding" (·.positionEncoding) (.optional PositionEncodingKind.codec) <|
    .own "textDocumentSync" (·.textDocumentSync) (.optional TextDocumentSyncCapability.codec) <|
    .own "notebookDocumentSync" (·.notebookDocumentSync)
      (.optional NotebookDocumentSyncCapability.codec) <|
    .own "completionProvider" (·.completionProvider) (.optional CompletionOptions.codec) <|
    .own "hoverProvider" (·.hoverProvider)
      (.optional (BoolOrOptions.codec WorkDoneProgressOptions.codec)) <|
    .own "signatureHelpProvider" (·.signatureHelpProvider) (.optional SignatureHelpOptions.codec) <|
    .own "declarationProvider" (·.declarationProvider)
      (.optional (ProviderCapability.codec WorkDoneProgressOptions.record)) <|
    .own "definitionProvider" (·.definitionProvider)
      (.optional (BoolOrOptions.codec WorkDoneProgressOptions.codec)) <|
    .own "typeDefinitionProvider" (·.typeDefinitionProvider)
      (.optional (ProviderCapability.codec WorkDoneProgressOptions.record)) <|
    .own "implementationProvider" (·.implementationProvider)
      (.optional (ProviderCapability.codec WorkDoneProgressOptions.record)) <|
    .own "referencesProvider" (·.referencesProvider)
      (.optional (BoolOrOptions.codec WorkDoneProgressOptions.codec)) <|
    .own "documentHighlightProvider" (·.documentHighlightProvider)
      (.optional (BoolOrOptions.codec WorkDoneProgressOptions.codec)) <|
    .own "documentSymbolProvider" (·.documentSymbolProvider)
      (.optional (BoolOrOptions.codec DocumentSymbolOptions.codec)) <|
    .own "codeActionProvider" (·.codeActionProvider)
      (.optional (BoolOrOptions.codec CodeActionOptions.codec)) <|
    .own "codeLensProvider" (·.codeLensProvider) (.optional ResolveOptions.codec) <|
    .own "documentLinkProvider" (·.documentLinkProvider) (.optional ResolveOptions.codec) <|
    .own "colorProvider" (·.colorProvider)
      (.optional (ProviderCapability.codec WorkDoneProgressOptions.record)) <|
    .own "documentFormattingProvider" (·.documentFormattingProvider)
      (.optional (BoolOrOptions.codec WorkDoneProgressOptions.codec)) <|
    .own "documentRangeFormattingProvider" (·.documentRangeFormattingProvider)
      (.optional (BoolOrOptions.codec WorkDoneProgressOptions.codec)) <|
    .own "documentOnTypeFormattingProvider" (·.documentOnTypeFormattingProvider)
      (.optional DocumentOnTypeFormattingOptions.codec) <|
    .own "renameProvider" (·.renameProvider)
      (.optional (BoolOrOptions.codec RenameOptions.codec)) <|
    .own "foldingRangeProvider" (·.foldingRangeProvider)
      (.optional (ProviderCapability.codec WorkDoneProgressOptions.record)) <|
    .own "executeCommandProvider" (·.executeCommandProvider)
      (.optional ExecuteCommandOptions.codec) <|
    .own "selectionRangeProvider" (·.selectionRangeProvider)
      (.optional (ProviderCapability.codec WorkDoneProgressOptions.record)) <|
    .own "linkedEditingRangeProvider" (·.linkedEditingRangeProvider)
      (.optional (ProviderCapability.codec WorkDoneProgressOptions.record)) <|
    .own "callHierarchyProvider" (·.callHierarchyProvider)
      (.optional (ProviderCapability.codec WorkDoneProgressOptions.record)) <|
    .own "semanticTokensProvider" (·.semanticTokensProvider)
      (.optional (OptionsOrRegistration.codec SemanticTokensOptions.record)) <|
    .own "monikerProvider" (·.monikerProvider)
      (.optional (ProviderCapability.codec WorkDoneProgressOptions.record)) <|
    .own "typeHierarchyProvider" (·.typeHierarchyProvider)
      (.optional (ProviderCapability.codec WorkDoneProgressOptions.record)) <|
    .own "inlineValueProvider" (·.inlineValueProvider)
      (.optional (ProviderCapability.codec WorkDoneProgressOptions.record)) <|
    .own "inlayHintProvider" (·.inlayHintProvider)
      (.optional (ProviderCapability.codec ResolveOptions.record)) <|
    .own "diagnosticProvider" (·.diagnosticProvider)
      (.optional (OptionsOrRegistration.codec DiagnosticOptions.record)) <|
    .own "workspaceSymbolProvider" (·.workspaceSymbolProvider)
      (.optional (BoolOrOptions.codec ResolveOptions.codec)) <|
    .own "workspace" (·.workspace) (.optional WorkspaceServerCapabilities.codec) <|
    .own "experimental" (·.experimental) (.optional LspAny.codec) .done⟩

def ServerCapabilities.codec : Codec ServerCapabilities := ServerCapabilities.record.codec

end LanguageServer
