import LanguageServer.Protocol.CodeAction
import LanguageServer.Protocol.Completion
import LanguageServer.Protocol.DiagnosticReport
import LanguageServer.Protocol.DocumentSync
import LanguageServer.Protocol.Edit
import LanguageServer.Protocol.FileOperation
import LanguageServer.Protocol.Folding
import LanguageServer.Protocol.Hover
import LanguageServer.Protocol.Inlay
import LanguageServer.Protocol.Navigation
import LanguageServer.Protocol.Notebook
import LanguageServer.Protocol.Rename
import LanguageServer.Protocol.SemanticTokens
import LanguageServer.Protocol.Symbol
import LanguageServer.Protocol.Window
import LanguageServer.Protocol.Workspace

/-!
# What a client can do

A client says at the start what it can do. Values that the server does not know are dropped from the
sets of known values; members that it does not know are passed over.
-/

namespace LanguageServer

/-- The regular expressions of a client. -/
structure RegularExpressionsClientCapabilities where
  engine : String := ""
  version : Option String := none

def RegularExpressionsClientCapabilities.record : Record RegularExpressionsClientCapabilities :=
  ⟨"RegularExpressionsClientCapabilities", RegularExpressionsClientCapabilities.mk,
    .own "engine" (·.engine) (.required Codec.string) <|
    .own "version" (·.version) (.trailing Codec.string) .done⟩

def RegularExpressionsClientCapabilities.codec : Codec RegularExpressionsClientCapabilities :=
  RegularExpressionsClientCapabilities.record.codec

/-- The Markdown of a client. -/
structure MarkdownClientCapabilities where
  parser : String := ""
  version : Option String := none
  allowedTags : Option (List String) := none

def MarkdownClientCapabilities.record : Record MarkdownClientCapabilities :=
  ⟨"MarkdownClientCapabilities", MarkdownClientCapabilities.mk,
    .own "parser" (·.parser) (.required Codec.string) <|
    .own "version" (·.version) (.trailing Codec.string) <|
    .own "allowedTags" (·.allowedTags) (.trailing Codec.string.list) .done⟩

def MarkdownClientCapabilities.codec : Codec MarkdownClientCapabilities :=
  MarkdownClientCapabilities.record.codec

/-- What a client can do in general. -/
structure GeneralClientCapabilities where
  regularExpressions : Option RegularExpressionsClientCapabilities := none
  markdown : Option MarkdownClientCapabilities := none
  positionEncodings : Option (List PositionEncodingKind) := none

def GeneralClientCapabilities.record : Record GeneralClientCapabilities :=
  ⟨"GeneralClientCapabilities", GeneralClientCapabilities.mk,
    .own "regularExpressions" (·.regularExpressions)
      (.trailing RegularExpressionsClientCapabilities.codec) <|
    .own "markdown" (·.markdown) (.trailing MarkdownClientCapabilities.codec) <|
    .own "positionEncodings" (·.positionEncodings) .knownEncodings .done⟩

def GeneralClientCapabilities.codec : Codec GeneralClientCapabilities :=
  GeneralClientCapabilities.record.codec

/-- What a client can do with the workspace. -/
structure WorkspaceClientCapabilities where
  applyEdit : Option Bool := none
  workspaceEdit : Option WorkspaceEditClientCapabilities := none
  didChangeConfiguration : Option DynamicRegistrationClientCapabilities := none
  didChangeWatchedFiles : Option DidChangeWatchedFilesClientCapabilities := none
  symbol : Option WorkspaceSymbolClientCapabilities := none
  executeCommand : Option DynamicRegistrationClientCapabilities := none
  workspaceFolders : Option Bool := none
  configuration : Option Bool := none
  semanticTokens : Option RefreshClientCapabilities := none
  codeLens : Option RefreshClientCapabilities := none
  fileOperations : Option FileOperationClientCapabilities := none
  inlineValue : Option RefreshClientCapabilities := none
  inlayHint : Option RefreshClientCapabilities := none
  diagnostics : Option RefreshClientCapabilities := none

def WorkspaceClientCapabilities.record : Record WorkspaceClientCapabilities :=
  ⟨"WorkspaceClientCapabilities", WorkspaceClientCapabilities.mk,
    .own "applyEdit" (·.applyEdit) (.trailing Codec.bool) <|
    .own "workspaceEdit" (·.workspaceEdit) (.trailing WorkspaceEditClientCapabilities.codec) <|
    .own "didChangeConfiguration" (·.didChangeConfiguration)
      (.trailing DynamicRegistrationClientCapabilities.codec) <|
    .own "didChangeWatchedFiles" (·.didChangeWatchedFiles)
      (.trailing DidChangeWatchedFilesClientCapabilities.codec) <|
    .own "symbol" (·.symbol) (.trailing WorkspaceSymbolClientCapabilities.codec) <|
    .own "executeCommand" (·.executeCommand)
      (.trailing DynamicRegistrationClientCapabilities.codec) <|
    .own "workspaceFolders" (·.workspaceFolders) (.trailing Codec.bool) <|
    .own "configuration" (·.configuration) (.trailing Codec.bool) <|
    .own "semanticTokens" (·.semanticTokens) (.trailing RefreshClientCapabilities.codec) <|
    .own "codeLens" (·.codeLens) (.trailing RefreshClientCapabilities.codec) <|
    .own "fileOperations" (·.fileOperations) (.trailing FileOperationClientCapabilities.codec) <|
    .own "inlineValue" (·.inlineValue) (.trailing RefreshClientCapabilities.codec) <|
    .own "inlayHint" (·.inlayHint) (.trailing RefreshClientCapabilities.codec) <|
    .own "diagnostics" (·.diagnostics) (.trailing RefreshClientCapabilities.codec) .done⟩

def WorkspaceClientCapabilities.codec : Codec WorkspaceClientCapabilities :=
  WorkspaceClientCapabilities.record.codec

/-- What a client can do with documents. -/
structure TextDocumentClientCapabilities where
  synchronization : Option TextDocumentSyncClientCapabilities := none
  completion : Option CompletionClientCapabilities := none
  hover : Option HoverClientCapabilities := none
  signatureHelp : Option DynamicRegistrationClientCapabilities := none
  declaration : Option GotoClientCapabilities := none
  definition : Option GotoClientCapabilities := none
  typeDefinition : Option GotoClientCapabilities := none
  implementation : Option GotoClientCapabilities := none
  references : Option DynamicRegistrationClientCapabilities := none
  documentHighlight : Option DynamicRegistrationClientCapabilities := none
  documentSymbol : Option DocumentSymbolClientCapabilities := none
  codeAction : Option CodeActionClientCapabilities := none
  codeLens : Option DynamicRegistrationClientCapabilities := none
  documentLink : Option DynamicRegistrationClientCapabilities := none
  colorProvider : Option DynamicRegistrationClientCapabilities := none
  formatting : Option DynamicRegistrationClientCapabilities := none
  rangeFormatting : Option DynamicRegistrationClientCapabilities := none
  onTypeFormatting : Option DynamicRegistrationClientCapabilities := none
  rename : Option RenameClientCapabilities := none
  publishDiagnostics : Option PublishDiagnosticsClientCapabilities := none
  foldingRange : Option FoldingRangeClientCapabilities := none
  selectionRange : Option DynamicRegistrationClientCapabilities := none
  linkedEditingRange : Option DynamicRegistrationClientCapabilities := none
  callHierarchy : Option DynamicRegistrationClientCapabilities := none
  semanticTokens : Option SemanticTokensClientCapabilities := none
  moniker : Option DynamicRegistrationClientCapabilities := none
  typeHierarchy : Option DynamicRegistrationClientCapabilities := none
  inlineValue : Option DynamicRegistrationClientCapabilities := none
  inlayHint : Option InlayHintClientCapabilities := none
  diagnostic : Option DiagnosticClientCapabilities := none

def TextDocumentClientCapabilities.record : Record TextDocumentClientCapabilities :=
  ⟨"TextDocumentClientCapabilities", TextDocumentClientCapabilities.mk,
    .own "synchronization" (·.synchronization)
      (.trailing TextDocumentSyncClientCapabilities.codec) <|
    .own "completion" (·.completion) (.trailing CompletionClientCapabilities.codec) <|
    .own "hover" (·.hover) (.trailing HoverClientCapabilities.codec) <|
    .own "signatureHelp" (·.signatureHelp)
      (.trailing DynamicRegistrationClientCapabilities.codec) <|
    .own "declaration" (·.declaration) (.trailing GotoClientCapabilities.codec) <|
    .own "definition" (·.definition) (.trailing GotoClientCapabilities.codec) <|
    .own "typeDefinition" (·.typeDefinition) (.trailing GotoClientCapabilities.codec) <|
    .own "implementation" (·.implementation) (.trailing GotoClientCapabilities.codec) <|
    .own "references" (·.references) (.trailing DynamicRegistrationClientCapabilities.codec) <|
    .own "documentHighlight" (·.documentHighlight)
      (.trailing DynamicRegistrationClientCapabilities.codec) <|
    .own "documentSymbol" (·.documentSymbol) (.trailing DocumentSymbolClientCapabilities.codec) <|
    .own "codeAction" (·.codeAction) (.trailing CodeActionClientCapabilities.codec) <|
    .own "codeLens" (·.codeLens) (.trailing DynamicRegistrationClientCapabilities.codec) <|
    .own "documentLink" (·.documentLink) (.trailing DynamicRegistrationClientCapabilities.codec) <|
    .own "colorProvider" (·.colorProvider)
      (.trailing DynamicRegistrationClientCapabilities.codec) <|
    .own "formatting" (·.formatting) (.trailing DynamicRegistrationClientCapabilities.codec) <|
    .own "rangeFormatting" (·.rangeFormatting)
      (.trailing DynamicRegistrationClientCapabilities.codec) <|
    .own "onTypeFormatting" (·.onTypeFormatting)
      (.trailing DynamicRegistrationClientCapabilities.codec) <|
    .own "rename" (·.rename) (.trailing RenameClientCapabilities.codec) <|
    .own "publishDiagnostics" (·.publishDiagnostics)
      (.trailing PublishDiagnosticsClientCapabilities.codec) <|
    .own "foldingRange" (·.foldingRange) (.trailing FoldingRangeClientCapabilities.codec) <|
    .own "selectionRange" (·.selectionRange)
      (.trailing DynamicRegistrationClientCapabilities.codec) <|
    .own "linkedEditingRange" (·.linkedEditingRange)
      (.trailing DynamicRegistrationClientCapabilities.codec) <|
    .own "callHierarchy" (·.callHierarchy)
      (.trailing DynamicRegistrationClientCapabilities.codec) <|
    .own "semanticTokens" (·.semanticTokens) (.trailing SemanticTokensClientCapabilities.codec) <|
    .own "moniker" (·.moniker) (.trailing DynamicRegistrationClientCapabilities.codec) <|
    .own "typeHierarchy" (·.typeHierarchy)
      (.trailing DynamicRegistrationClientCapabilities.codec) <|
    .own "inlineValue" (·.inlineValue) (.trailing DynamicRegistrationClientCapabilities.codec) <|
    .own "inlayHint" (·.inlayHint) (.trailing InlayHintClientCapabilities.codec) <|
    .own "diagnostic" (·.diagnostic) (.trailing DiagnosticClientCapabilities.codec) .done⟩

def TextDocumentClientCapabilities.codec : Codec TextDocumentClientCapabilities :=
  TextDocumentClientCapabilities.record.codec

/-- What a client can do. -/
structure ClientCapabilities where
  workspace : Option WorkspaceClientCapabilities := none
  textDocument : Option TextDocumentClientCapabilities := none
  notebookDocument : Option NotebookDocumentClientCapabilities := none
  window : Option WindowClientCapabilities := none
  general : Option GeneralClientCapabilities := none
  experimental : Option LspAny := none
deriving Inhabited

def ClientCapabilities.record : Record ClientCapabilities :=
  ⟨"ClientCapabilities", ClientCapabilities.mk,
    .own "workspace" (·.workspace) (.trailing WorkspaceClientCapabilities.codec) <|
    .own "textDocument" (·.textDocument) (.trailing TextDocumentClientCapabilities.codec) <|
    .own "notebookDocument" (·.notebookDocument)
      (.trailing NotebookDocumentClientCapabilities.codec) <|
    .own "window" (·.window) (.trailing WindowClientCapabilities.codec) <|
    .own "general" (·.general) (.trailing GeneralClientCapabilities.codec) <|
    .own "experimental" (·.experimental) (.trailing LspAny.codec) .done⟩

def ClientCapabilities.codec : Codec ClientCapabilities := ClientCapabilities.record.codec

namespace ClientCapabilities

/-- The encodings that the client offers. -/
def positionEncodings (c : ClientCapabilities) : List PositionEncodingKind :=
  (c.general.bind (·.positionEncodings)).getD []

/-- Whether the client answers requests for settings. -/
def supportsConfiguration (c : ClientCapabilities) : Bool :=
  (c.workspace.bind (·.configuration)).getD false

/-- Whether the client shows progress. -/
def supportsWorkDoneProgress (c : ClientCapabilities) : Bool :=
  (c.window.bind (·.workDoneProgress)).getD false

end ClientCapabilities

end LanguageServer
